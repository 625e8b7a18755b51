import PortForwarding.Pass.Fleet
import PortForwarding.Proofs.Pass.Overlap

/-!
# The pass against drift, beside passes after events

The pass comes to all Services that were listed. On the territory it writes under
the lock, and to the other slots nobody else writes; so a Service that it looks at
again owns then what it was listed as wanting (`revisit_keeps`), and the whole
pass leaves that behind (`fleetPass_keeps`).
-/

namespace PortForwarding.Territory

open Listing Script Shared

variable {T : Territory} {listed : List ServiceObject} {me : Agent} {s t : Shared}
  {side : Slot → Bool} {view : ServiceView} {defaults : RuleDefaults}
  {desired : List DesiredRule} {P : Shared → Prop} {wanted : List DesiredRule → Prop}

theorem correct_keeps (hP : T.Bears me side P) (hs : P s)
    (halone : T.Alone me side s) (hhome : T.Home defaults view side)
    (hrules : Desired.rulesFor view defaults = .ok desired) :
    T.Keeps listed me (fun _ t => T.Mended me side P view.key desired t)
      (Fleet.correct
        (Drift.compare view.key view.reference desired
          (within side s.site.rules))) s := by
  refine quiet_andThen (asks_request trivial) fun _ s₁ hrely => ?_
  obtain ⟨halone₁, hsame⟩ := halone.rely hrely
  have hwanted := Desired.rulesFor_wanted hrules
  have hnd : (ids (within side s₁.site.rules)).Nodup :=
    ids_within_nodup halone₁.orderly.sound.ids_nodup
  rw [← hsame]
  refine (execute_keeps hP (hP.rely hs hrely) halone₁ hhome hrules Drift.map_fst_hosts
    (Drift.settles_hosts view.reference hwanted hnd)).andThen ?_
  rintro r s₂ ⟨rfl, hmended⟩
  refine quiet_andThen (asks_request trivial) fun _ s₃ hrely₃ => ?_
  refine quiet_andThen (asks_request trivial) fun _ s₄ hrely₄ => ?_
  exact ensures_done ((hmended.rely hP hrely₃).rely hP hrely₄)

/-- **A Service that is looked at again owns then what it was listed as
wanting.** -/
theorem revisit_keeps (hP : T.Bears me side P) (hs : P s)
    (halone : T.Alone me side s) (hhome : T.Home defaults view side)
    (hrules : Desired.rulesFor view defaults = .ok desired) :
    T.Keeps listed me (fun _ t => T.Mended me side P view.key desired t)
      (Fleet.revisit view desired) s := by
  refine (listRules_keeps s).andThen ?_
  rintro r s₁ ⟨rfl, hrely⟩
  have hs₁ := hP.rely hs hrely
  obtain ⟨halone₁, -⟩ := halone.rely hrely
  have hslots : ∀ d ∈ desired, side d.slot = true := hhome.slots desired hrules
  have howned := hhome.owns.owned halone₁.orderly
  have hwithin := Drift.compare_within view.reference hslots howned
  dsimp only
  rw [← hwithin]
  split
  · exact correct_keeps hP hs₁ halone₁ hhome hrules
  · next hcalm =>
      have hnd : (ids (within side s₁.site.rules)).Nodup :=
        ids_within_nodup halone₁.orderly.sound.ids_nodup
      exact ensures_done ⟨hs₁, halone₁, Drift.converged_of_calm view.reference hhome.valid
        (Desired.rulesFor_wanted hrules) hnd (Bool.eq_false_iff.mpr hcalm)⟩

theorem visit_keeps (rules : List RouterRule) (hhome : T.Home defaults view side)
    (hview : view.key = T.key →
      ∀ desired, Desired.rulesFor view defaults = .ok desired → wanted desired)
    (hs : T.Leaves .periodic wanted s) :
    T.Keeps listed .periodic (fun _ t => T.Leaves .periodic wanted t)
      (Fleet.visit defaults rules view) s := by
  refine (claimDesired_keeps view defaults s).andThen ?_
  rintro r s₁ ⟨hrely, hclaimed⟩
  have hs₁ := hs.spares hrely.toSpares
  cases r with
  | error e =>
      refine quiet_andThen (asks_request trivial) fun _ s₂ hrely₂ => ?_
      exact ensures_done (hs₁.spares hrely₂.toSpares)
  | ok desired =>
      have hrules := hclaimed desired rfl
      dsimp only
      split
      · rcases hhome.owns with ⟨hkey, rfl⟩ | ⟨hother, rfl⟩
        -- its own lock keeps the event path off the territory
        · rw [hkey]
          refine Ensures.locked ((lock_keeps hs₁.orderly).imp fun _ s₂ hinside => ?_)
          refine (revisit_keeps bears_inside hinside (.inside hinside) hhome
            hrules).imp ?_
          intro _ s₃ hmended
          refine (unlock_keeps hmended.kept).imp ?_
          rintro _ s₄ ⟨horderly, -, hsame⟩
          refine ⟨horderly, fun _ => ⟨desired, hview hkey desired hrules, ?_⟩⟩
          rw [hsame, ← hkey]
          exact hmended.converged
        -- outside the territory nobody else writes
        · have hne : view.key ≠ T.key := fun heq => T.key_notMem (heq ▸ hother)
          refine Ensures.locked ((otherLock_keeps (Or.inl rfl) hne s₁).imp ?_)
          intro _ s₂ hrely₂
          have hs₂ := hs₁.spares hrely₂.toSpares
          refine (revisit_keeps bears_leaves hs₂ (.outside hs₂.orderly rfl) hhome
            hrules).imp ?_
          intro _ s₃ hmended
          refine (otherLock_keeps (Or.inr rfl) hne s₃).imp fun _ s₄ hrely₄ => ?_
          exact hmended.kept.spares hrely₄.toSpares
      · exact ensures_done hs₁

theorem visitAll_keeps (rules : List RouterRule) {views : List ServiceView}
    (hhomes : ∀ view ∈ views, ∃ side, T.Home defaults view side)
    (hviews : ∀ view ∈ views, view.key = T.key →
      ∀ desired, Desired.rulesFor view defaults = .ok desired → wanted desired)
    (hs : T.Leaves .periodic wanted s) :
    T.Keeps listed .periodic (fun _ t => T.Leaves .periodic wanted t)
      (Fleet.visitAll defaults rules views) s := by
  induction views generalizing s with
  | nil => exact ensures_done hs
  | cons view views ih =>
      refine (isCancelled_keeps s).andThen ?_
      rintro seen s₁ ⟨rfl, hrely⟩
      have hs₁ := hs.spares hrely.toSpares
      obtain ⟨side, hhome⟩ := hhomes view List.mem_cons_self
      refine (visit_keeps rules hhome (hviews view List.mem_cons_self) hs₁).andThen ?_
      intro v s₂ hs₂
      split
      · exact ensures_done hs₂
      · have hrest := ih (fun view hv => hhomes view (List.mem_cons_of_mem _ hv))
          (fun view hv => hviews view (List.mem_cons_of_mem _ hv)) hs₂
        exact hrest.andThen fun _ t ht => ensures_done ht

/-- What the Services that are looked after want, as they were listed, for
one key. -/
def AsListed (defaults : RuleDefaults) (listed : List ServiceObject)
    (key : ServiceKey) (desired : List DesiredRule) : Prop :=
  ∃ view ∈ Fleet.managed listed, view.key = key ∧
    Desired.rulesFor view defaults = .ok desired

/-- **The pass against drift leaves a Service with what it was listed as
wanting**, unless somebody else had the lock later. -/
theorem fleetPass_keeps
    (hhomes : ∀ view ∈ Fleet.managed listed, ∃ side, T.Home defaults view side)
    (hs : T.Orderly s) (hfree : s.last T.key ≠ some .periodic) :
    T.Keeps listed .periodic (fun _ t =>
      T.Leaves .periodic (AsListed defaults listed T.key) t)
      (Fleet.pass defaults).run s := by
  have hstart : T.Leaves .periodic (AsListed defaults listed T.key) s :=
    ⟨hs, fun hlast => absurd hlast hfree⟩
  have hservices :
      T.Keeps listed .periodic (fun r t => r = .ok listed ∧ T.Rely .periodic s t)
        listServices.run s := by
    refine ensures_request (r := .store .list) fun s' hrely reply t hmay => ?_
    have hstill := Quiet.still (r := .store .list) trivial hmay
    exact ⟨rely_of_still hstill, hmay.1, hrely.trans (rely_of_still hstill)⟩
  refine hservices.adaptThenOk ?_
  intro s₁ hrely
  have hs₁ := hstart.spares hrely.toSpares
  refine (listRules_keeps s₁).adaptThenOk ?_
  intro s₂ hrely₂
  have hs₂ := hs₁.spares hrely₂.toSpares
  refine (visitAll_keeps s₂.site.rules hhomes ?_ hs₂).liftThen fun visits t ht =>
    ensures_done ht
  exact fun view hview hkey desired hwants => ⟨view, hview, hkey, hwants⟩

end PortForwarding.Territory
