import PortForwarding.Proofs.Pass.Asks
import PortForwarding.Proofs.Pass.Overlap

/-!
# Passes after events, beside the pass against drift

A pass for the Service of a territory writes to the router only under the lock.
What it does there is to carry out a plan (`convergeLocked_keeps`) or to remove
all that the Service owns (`removeOwned_keeps`); `Brings` says what a pass is to
bring about, and `pass_keeps` that it has, when it gets to its end.
-/

namespace PortForwarding.Territory

open Listing Script Shared

variable {T : Territory} {listed : List ServiceObject} {me : Agent} {s t : Shared}
  {view : ServiceView} {defaults : RuleDefaults} {settings : CleanupSettings}
  {desired : List DesiredRule}

/-! ## Scripts that leave the router alone -/

theorem asks_afterFailure (service : ServiceObject) (failure : PassFailure) :
    Asks Quiet (Reconcile.afterFailure service failure) :=
  Asks.bind (asks_request trivial) fun _ =>
    Asks.bind (asks_request trivial) fun _ => trivial

/-! ## Converging -/

/-- Under the lock the plan is made for the territory as it is, also where a
second listing is taken. -/
theorem planAgainstRouter_keeps (hhome : T.Home defaults view T.zone)
    (hrules : Desired.rulesFor view defaults = .ok desired) (hs : T.Inside me s) :
    T.Keeps listed me (fun r t => T.Inside me t ∧
      r = .ok (planFor view.key desired (within T.zone t.site.rules)
        (Takeover.detect view.key desired (within T.zone t.site.rules))))
      (Reconcile.planAgainstRouter view.key desired).run s := by
  have hslots : ∀ d ∈ desired, T.zone d.slot = true := hhome.slots desired hrules
  have hplan : ∀ {s₁ t}, T.Inside me s₁ → T.Inside me t →
      within T.zone t.site.rules = within T.zone s₁.site.rules →
      planFor view.key desired t.site.rules
        (Takeover.revalidate (Takeover.detect view.key desired s₁.site.rules)
        t.site.rules) =
      planFor view.key desired (within T.zone t.site.rules)
        (Takeover.detect view.key desired (within T.zone t.site.rules)) := by
    intro s₁ t hs₁ ht hsame
    rw [planFor_within hslots (hhome.owns.owned hs₁.orderly)
      (hhome.owns.owned ht.orderly) hsame, hsame]
  refine (listRules_keeps s).andThenOk ?_
  intro s₁ hrely
  obtain ⟨hs₁, -⟩ := hs.rely hrely
  cases hdetect : Takeover.detect view.key desired s₁.site.rules with
  | nil =>
      have hnow := hplan hs₁ hs₁ rfl
      rw [hdetect] at hnow
      exact ensures_done ⟨hs₁, congrArg Except.ok hnow⟩
  | cons op ops =>
      refine (listRules_keeps s₁).andThenOk ?_
      intro s₂ hrely₂
      obtain ⟨hs₂, hsame⟩ := hs₁.rely hrely₂
      have hnow := hplan hs₁ hs₂ hsame
      rw [hdetect] at hnow
      exact ensures_done ⟨hs₂, congrArg Except.ok hnow⟩

/-- **Under the lock a Service comes to own what it wants.** -/
theorem convergeLocked_keeps (hkey : view.key = T.key)
    (hhome : T.Home defaults view T.zone)
    (hrules : Desired.rulesFor view defaults = .ok desired) (hs : T.Inside me s) :
    T.Keeps listed me (fun _ t => T.Mended me T.zone (T.Inside me) T.key desired t)
      (Reconcile.convergeLocked view desired).run s := by
  refine (planAgainstRouter_keeps hhome hrules hs).adaptThen ?_ fun e t h =>
    absurd h.2 (by simp)
  rintro plan s₁ ⟨hs₁, heq⟩
  have hsettles :=
    settles_planFor (within T.zone s₁.site.rules) (Desired.rulesFor_wanted hrules)
  rw [← Except.ok.inj heq] at hsettles
  refine (execute_keeps bears_inside hs₁ (.inside hs₁) hhome hrules Takeover.hosts_map_fst
    hsettles).adaptThenOk ?_
  intro s₂ hmended
  rw [hkey] at hmended
  -- the router is done with, and others leave the territory alone until the lock
  -- is given back
  refine (quiet_keeps ?_ s₂).imp fun _ t hrely => hmended.rely bears_inside hrely
  refine Asks.tryBind (Asks.lift (asks_request trivial)) fun _ => ?_
  refine Asks.tryBind (Asks.lift (Reconcile.asks_forget _ trivial trivial)) fun _ => ?_
  refine Asks.tryBind (Asks.lift (Reconcile.asks_announce _ fun _ => trivial)) fun _ => ?_
  exact Asks.adapt (Mark.asks_annotate _ trivial)

/-- What has come of the passes of the agent: it may have given the lock back with
the Service owning what is wanted. -/
def Settled (T : Territory) (me : Agent) (wanted : List DesiredRule → Prop)
    (s : Shared) : Prop :=
  s.last T.key ≠ none ∧ T.Leaves me wanted s

theorem converge_keeps (hkey : view.key = T.key) (hhome : T.Home defaults view T.zone)
    (hs : T.Orderly s) :
    T.Keeps listed me (fun r t => T.Orderly t ∧ (r = .ok () →
      T.Settled me (fun desired => Desired.rulesFor view defaults = .ok desired) t))
      (Reconcile.converge defaults view).run s := by
  refine (claimDesired_keeps view defaults s).adaptThen ?_ fun e t h =>
    ⟨h.1.orderly hs, nofun⟩
  rintro desired s₁ ⟨hrely, h⟩
  have hrules := h desired rfl
  show T.Keeps listed me _
    (locked view.key (Reconcile.convergeLocked view desired).run) s₁
  rw [hkey]
  refine Ensures.locked ((lock_keeps (hrely.orderly hs)).imp fun _ s₂ hinside => ?_)
  refine (convergeLocked_keeps hkey hhome hrules hinside).imp fun r s₃ hmended => ?_
  refine (unlock_keeps hmended.kept).imp ?_
  rintro _ s₄ ⟨horderly, hlast, hsame⟩
  refine ⟨horderly, fun _ => ⟨by simp [hlast], horderly, fun _ => ⟨desired, hrules, ?_⟩⟩⟩
  rw [hsame]
  exact hmended.converged

/-! ## Cleaning up -/

theorem removeAll_keeps {rules : List RouterRule} (hs : T.Inside me s)
    (hnd : (ids rules).Nodup)
    (hrules : ∀ r ∈ rules, r ∈ within T.zone s.site.rules) :
    T.Keeps listed me (fun _ t => T.Inside me t ∧ within T.zone t.site.rules =
      (within T.zone s.site.rules).filter fun r => decide (r.id ∉ ids rules))
      (Cleanup.removeAll rules) s := by
  induction rules generalizing s with
  | nil => exact ensures_done ⟨hs, by simp [ids]⟩
  | cons r rules ih =>
      obtain ⟨hhead, htail⟩ := List.nodup_cons.mp hnd
      refine (removeRule_keeps bears_inside hs (.inside hs)
        (hrules r List.mem_cons_self)).andThen ?_
      rintro reply s₁ ⟨rfl, hs₁, -, hgone⟩
      have hleft : ∀ r' ∈ rules, r' ∈ within T.zone s₁.site.rules := by
        intro r' hr'
        rw [hgone, mem_without]
        refine ⟨hrules r' (List.mem_cons_of_mem _ hr'), fun hid => hhead ?_⟩
        rw [← hid]
        exact mem_ids_of_mem hr'
      refine (ih hs₁ htail hleft).andThen ?_
      rintro p t ⟨ht, hrest⟩
      refine ensures_done ⟨ht, ?_⟩
      rw [hrest, hgone]
      unfold without
      rw [List.filter_filter]
      refine List.filter_congr fun r' _ => ?_
      rw [Bool.eq_iff_iff, Bool.and_eq_true, decide_eq_true_iff, decide_eq_true_iff,
        decide_eq_true_iff]
      show r'.id ∉ ids rules ∧ r'.id ≠ r.id ↔ r'.id ∉ r.id :: ids rules
      rw [List.mem_cons, not_or, and_comm]

/-- **Under the lock all that the Service owns is removed.** -/
theorem removeOwned_keeps (hs : T.Inside me s) :
    T.Keeps listed me (fun _ t => T.Mended me T.zone (T.Inside me) T.key [] t)
      (Cleanup.removeOwned T.key).run s := by
  refine (listRules_keeps s).adaptThenOk ?_
  intro s₁ hrely
  obtain ⟨hs₁, -⟩ := hs.rely hrely
  have howned : ownedRules T.key (within T.zone s₁.site.rules) =
      ownedRules T.key s₁.site.rules :=
    ownedRules_within fun r hr => (hs₁.orderly.fits r hr).own
  have hnd : (ids (ownedRules T.key s₁.site.rules)).Nodup :=
    hs₁.orderly.sound.ids_nodup.sublist (List.filter_sublist.map _)
  have hmem : ∀ r ∈ ownedRules T.key s₁.site.rules, r ∈ within T.zone s₁.site.rules := by
    rw [← howned]
    exact fun r hr => (List.mem_filter.mp hr).1
  refine (removeAll_keeps hs₁ hnd hmem).liftThen ?_
  rintro ⟨removed, complaints⟩ t ⟨ht, hrest⟩
  have hnone : ownedRules T.key (within T.zone t.site.rules) = [] := by
    rw [hrest]
    refine List.filter_eq_nil_iff.mpr fun r hr hkey => ?_
    obtain ⟨hr, hnot⟩ := List.mem_filter.mp hr
    refine of_decide_eq_true hnot (mem_ids_of_mem ?_)
    rw [← howned]
    exact List.mem_filter.mpr ⟨hr, hkey⟩
  have hmended : T.Mended me T.zone (T.Inside me) T.key [] t := by
    refine ⟨ht, .inside ht, ?_, ?_⟩
    · rw [hnone]
      exact List.Perm.refl _
    · rw [hnone]
      exact fun r hr => absurd hr List.not_mem_nil
  dsimp only
  split
  · exact ensures_done hmended
  · exact ensures_done hmended

def AttemptsLeft (settings : CleanupSettings) (view : ServiceView) : Prop :=
  (CleanupRecord.decode (view.annotation? Mark.cleanupState)).attempts <
    settings.maxRetries

/-- What a cleanup pass has come to: it has removed what the Service owned, or
will be tried again, or was out of attempts. -/
structure Cleaned (T : Territory) (me : Agent) (settings : CleanupSettings)
    (view : ServiceView) (r : Except StoreError CleanupOutcome) (s : Shared) :
    Prop where
  inside : T.Inside me s
  emptied : ∀ n, r = .ok (.completed n) → Converged T.key [] (within T.zone s.site.rules)
  spent : ∀ n, r = .ok (.forced n) → ¬AttemptsLeft settings view

theorem cleanupAttempt_keeps (hkey : view.key = T.key) (record : CleanupRecord)
    (hs : T.Inside me s) :
    T.Keeps listed me (T.Cleaned me settings view)
      (Cleanup.attempt settings view record).run s := by
  refine (quiet_keeps (asks_request (r := .now) trivial) s).liftThen
    fun time s₁ hrely₁ => ?_
  obtain ⟨hs₁, -⟩ := hs.rely hrely₁
  refine (quiet_keeps (Mark.asks_annotate _ trivial) s₁).andThenTry ?_ ?_
  · intro _ s₂ hrely₂
    obtain ⟨hs₂, -⟩ := hs₁.rely hrely₂
    rw [hkey]
    refine (removeOwned_keeps hs₂).liftThen fun r s₃ hmended => ?_
    cases r with
    | ok removed =>
        have hasks : Asks Quiet (Cleanup.complete view removed).run :=
          Cleanup.asks_complete view removed (fun _ => trivial) trivial
            (fun _ => trivial) trivial fun _ => trivial
        refine (quiet_keeps hasks s₃).andThenTry ?_ ?_
        · intro _ t hrely
          have hdone := hmended.rely bears_inside hrely
          exact ensures_done ⟨hdone.kept, fun _ _ => hdone.converged, nofun⟩
        · exact fun e t hrely => ⟨(hmended.rely bears_inside hrely).kept, nofun, nofun⟩
    | error error =>
        refine (quiet_keeps (Mark.asks_annotate _ trivial) s₃).andThenTry ?_ ?_
        · exact fun _ t hrely =>
            ensures_done ⟨(hmended.rely bears_inside hrely).kept, nofun, nofun⟩
        · exact fun e t hrely => ⟨(hmended.rely bears_inside hrely).kept, nofun, nofun⟩
  · exact fun e t hrely => ⟨(hs₁.rely hrely).1, nofun, nofun⟩

theorem force_keeps (record : CleanupRecord) (hspent : ¬AttemptsLeft settings view)
    (hs : T.Inside me s) :
    T.Keeps listed me (T.Cleaned me settings view)
      (Cleanup.force view record).run s := by
  have hfailed : ∀ {s t} (e : StoreError), T.Inside me s → T.Rely me s t →
      T.Cleaned me settings view (.error e) t :=
    fun e hs hrely => ⟨(hs.rely hrely).1, nofun, nofun⟩
  refine (quiet_keeps (asks_request (r := .publish _ _) trivial) s).liftThen
    fun _ s₁ h₁ => ?_
  obtain ⟨hs₁, -⟩ := hs.rely h₁
  refine (quiet_keeps (Mark.asks_annotate _ trivial) s₁).andThenTry ?_
    fun e t => hfailed e hs₁
  intro _ s₂ h₂
  obtain ⟨hs₂, -⟩ := hs₁.rely h₂
  refine (quiet_keeps (Mark.asks_removeFinalizer trivial fun _ => trivial)
    s₂).andThenTry ?_ fun e t => hfailed e hs₂
  intro _ s₃ h₃
  obtain ⟨hs₃, -⟩ := hs₂.rely h₃
  refine (quiet_keeps (asks_request (r := .memory _) trivial) s₃).liftThen fun _ t h => ?_
  exact ensures_done ⟨(hs₃.rely h).1, nofun, fun _ _ => hspent⟩

theorem cleanupPass_keeps (hkey : view.key = T.key) (hs : T.Inside me s) :
    T.Keeps listed me (T.Cleaned me settings view)
      (Cleanup.pass settings view).run s := by
  refine (quiet_keeps (asks_request (r := .now) trivial) s).liftThen
    fun time s₁ hrely => ?_
  obtain ⟨hs₁, -⟩ := hs.rely hrely
  split
  · exact ensures_done ⟨hs₁, nofun, nofun⟩
  · split
    · next hspent => exact force_keeps _ (UInt32.not_lt.mpr hspent) hs₁
    · exact cleanupAttempt_keeps hkey _ hs₁

/-! ## A whole pass -/

/-- What a pass brings about for a Service, in this version, if it gets to
its end. -/
inductive Brings (settings : CleanupSettings) (defaults : RuleDefaults)
    (view : ServiceView) :
    List DesiredRule → Prop
  | converged {desired : List DesiredRule} (living : view.deleting = false)
      (qualifies : view.qualifies = true) (finalizer : view.hasFinalizer = true)
      (rules : Desired.rulesFor view defaults = .ok desired) :
        Brings settings defaults view desired
  | cleaned (deleting : view.deleting = true) (finalizer : view.hasFinalizer = true)
      (attempts : AttemptsLeft settings view) : Brings settings defaults view []

theorem Brings.unique {desired' : List DesiredRule}
    (h : Brings settings defaults view desired)
    (h' : Brings settings defaults view desired') : desired = desired' := by
  cases h with
  | converged living qualifies finalizer rules =>
      cases h' with
      | converged living' qualifies' finalizer' rules' =>
          exact Except.ok.inj (rules.symm.trans rules')
      | cleaned deleting => exact absurd (living.symm.trans deleting) (by simp)
  | cleaned deleting finalizer attempts =>
      cases h' with
      | converged living => exact absurd (living.symm.trans deleting) (by simp)
      | cleaned => rfl

structure Came (T : Territory) (me : Agent) (settings : CleanupSettings)
    (defaults : RuleDefaults) (view : ServiceView) (r : Except PassFailure Action)
    (s : Shared) : Prop where
  orderly : T.Orderly s
  settled : r = .ok .awaitChange → ∀ desired, Brings settings defaults view desired →
    T.Settled me (Brings settings defaults view) s

theorem came_of_cleaned {r : Except PassFailure Action}
    (hdeleting : view.deleting = true) (hs : T.Inside me s)
    (hdone : r = .ok .awaitChange → AttemptsLeft settings view →
      Converged T.key [] (within T.zone s.site.rules)) :
    T.Keeps listed me (fun _ t => T.Came me settings defaults view r t)
      (request (.unlock T.key)) s := by
  refine (unlock_keeps hs).imp ?_
  rintro _ t ⟨horderly, hlast, hsame⟩
  refine ⟨horderly, fun hr desired hbrings => ⟨by simp [hlast], horderly, fun _ => ?_⟩⟩
  cases hbrings with
  | converged living => exact absurd (living.symm.trans hdeleting) (by simp)
  | cleaned deleting finalizer attempts =>
      refine ⟨[], .cleaned deleting finalizer attempts, ?_⟩
      rw [hsame]
      exact hdone hr attempts

theorem cleanUp_keeps (hkey : view.key = T.key) (hdeleting : view.deleting = true)
    (hs : T.Orderly s) :
    T.Keeps listed me (T.Came me settings defaults view)
      (Reconcile.cleanUp settings view).run s := by
  unfold Reconcile.cleanUp
  split
  · next hfinalizer =>
      rw [hkey]
      refine Ensures.locked ((lock_keeps hs).imp fun _ s₁ hinside => ?_)
      refine (cleanupPass_keeps hkey hinside).adaptThen ?_ ?_
      · intro outcome s₂ hcleaned
        cases outcome with
        | retry after attempts error =>
            exact ensures_done (came_of_cleaned hdeleting hcleaned.inside nofun)
        | completed removed =>
            refine (quiet_keeps (Reconcile.asks_forget _ trivial trivial) s₂).liftThen ?_
            intro _ s₃ hrely
            obtain ⟨hinside₃, hsame⟩ := hcleaned.inside.rely hrely
            refine ensures_done (came_of_cleaned hdeleting hinside₃ fun _ _ => ?_)
            rw [hsame]
            exact hcleaned.emptied removed rfl
        | forced attempts =>
            refine (quiet_keeps (Reconcile.asks_forget _ trivial trivial) s₂).liftThen ?_
            intro _ s₃ hrely
            obtain ⟨hinside₃, -⟩ := hcleaned.inside.rely hrely
            exact ensures_done (came_of_cleaned hdeleting hinside₃ fun _ hleft =>
              absurd hleft (hcleaned.spent attempts rfl))
      · exact fun e s₂ hcleaned => came_of_cleaned hdeleting hcleaned.inside nofun
  · next hfinalizer =>
      refine (quiet_keeps (asks_request (r := .memory _) trivial) s).liftThen
        fun _ t hrely => ?_
      refine ensures_done ⟨hrely.orderly hs, fun _ desired hbrings => ?_⟩
      cases hbrings with
      | converged living => exact absurd (living.symm.trans hdeleting) (by simp)
      | cleaned deleting finalizer => exact absurd finalizer hfinalizer

theorem managed_keeps (hkey : view.key = T.key) (hhome : T.Home defaults view T.zone)
    (hliving : view.deleting = false) (hqualifies : view.qualifies = true)
    (hfinalizer : view.hasFinalizer = true) (hs : T.Orderly s) :
    T.Keeps listed me (T.Came me settings defaults view)
      (Reconcile.managed defaults view).run s := by
  refine (converge_keeps hkey hhome hs).andThen ?_
  rintro r s₁ ⟨horderly, hsettled⟩
  cases r with
  | ok u =>
      obtain ⟨hknown, hleaves⟩ := hsettled rfl
      refine ensures_done ⟨horderly, fun _ _ _ => ⟨hknown, horderly, fun hlast => ?_⟩⟩
      obtain ⟨desired, hrules, hconverged⟩ := hleaves.settled hlast
      exact ⟨desired, .converged hliving hqualifies hfinalizer hrules, hconverged⟩
  | error failure =>
      have hasks : Asks Quiet (Reconcile.recordFailure view failure) :=
        Reconcile.asks_recordFailure view failure trivial trivial trivial fun _ => trivial
      refine quiet_andThen hasks fun _ t hrely => ?_
      exact ensures_done ⟨hrely.orderly horderly, nofun⟩

/-- **What comes of a pass for the Service**, with its events beside the pass
against drift. -/
theorem pass_keeps {service : ServiceObject}
    (hversion : ∀ view, ServiceView.of? service = .ok view →
      view.key = T.key ∧ T.Home defaults view T.zone)
    (hs : T.Orderly s) :
    T.Keeps listed me (fun r t => T.Orderly t ∧
      ∀ view, ServiceView.of? service = .ok view →
      T.Came me settings defaults view r t)
        (Reconcile.pass settings defaults service).run s := by
  unfold Reconcile.pass
  cases hview : ServiceView.of? service with
  | error e =>
      refine ensures_done ⟨hs, fun view heq => ?_⟩
      exact absurd heq (by simp)
  | ok view =>
      obtain ⟨hkey, hhome⟩ := hversion view hview
      suffices h : T.Keeps listed me (T.Came me settings defaults view)
          (Reconcile.passFor settings defaults view).run s by
        refine h.imp fun r t ht => ⟨ht.orderly, fun view' heq => ?_⟩
        obtain rfl := Except.ok.inj heq
        exact ht
      have hidle : ∀ {script : Script (Except PassFailure Action)}, Asks Quiet script →
          (∀ desired, ¬Brings settings defaults view desired) →
          T.Keeps listed me (T.Came me settings defaults view) script s := by
        intro script hquiet hnot
        refine (quiet_keeps hquiet s).imp fun r t hrely => ⟨hrely.orderly hs, ?_⟩
        exact fun _ desired hbrings => absurd hbrings (hnot desired)
      unfold Reconcile.passFor
      split
      · next hdeleting => exact cleanUp_keeps hkey hdeleting hs
      · next hliving =>
          have hliving : view.deleting = false := Bool.eq_false_iff.mpr hliving
          split
          -- it asks for nothing, and is let go if it was looked after
          · next hneeds =>
              refine hidle ?_ ?_
              · dsimp only
                split
                · have hlets : Asks Quiet (Reconcile.letGo view).run :=
                    Reconcile.asks_letGo view trivial trivial (fun _ => trivial)
                      trivial trivial trivial
                  exact hlets.adapt.tryBind fun _ => trivial
                · exact trivial
              · rintro desired (⟨-, hqualifies⟩ | ⟨hdeleting⟩)
                · exact absurd hneeds (by simp [hqualifies])
                · exact absurd (hliving.symm.trans hdeleting) (by simp)
          · next hneeds =>
              have hqualifies : view.qualifies = true := by simpa using hneeds
              split
              · next hbare =>
                  have hadds : Asks Quiet (Mark.addFinalizer view.key).run :=
                    Mark.asks_addFinalizer trivial fun _ => trivial
                  refine hidle (hadds.adapt.tryBind fun _ => trivial) ?_
                  rintro desired (⟨-, -, hfinalizer⟩ | ⟨-, hfinalizer⟩)
                  · exact absurd hbare (by simp [hfinalizer])
                  · exact absurd hbare (by simp [hfinalizer])
              · next hfinalizer =>
                  have hfinalizer : view.hasFinalizer = true := by simpa using hfinalizer
                  exact managed_keeps hkey hhome hliving hqualifies hfinalizer hs

end PortForwarding.Territory
