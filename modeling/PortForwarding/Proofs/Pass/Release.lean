import PortForwarding.Proofs.Pass.Asks
import PortForwarding.Proofs.Pass.Cleanup
import PortForwarding.Proofs.Service.View

/-!
# A deletion comes to an end

As long as the Kubernetes API does what it is asked and the passes are far enough
apart, a Service that is being deleted is let go after one pass more than there
are attempts, whatever the router answers (`finalizer_removed`). One more may go
by where the first pass finds a failure that no attempt was counted for.

This is so only for a Service of which the operator can make out where its traffic
goes. An address in the annotation that is none stops every pass before it begins,
and the finalizer stays on for ever.
-/

namespace PortForwarding.Reconcile

open Script Stored Cleanup

variable {settings : CleanupSettings} {defaults : RuleDefaults} {view : ServiceView}
  {destination : Option Address} {n : Nat} {s t u v : Stored}

structure Deleting (o : ServiceObject) : Prop where
  deleting : o.deleting = true
  «namespace» : o.namespace.isSome = true
  name : o.name.isSome = true

/-- Passes for one Service, at least the interval apart, in which no call to the
API fails and after which the clock is not earlier than before. -/
inductive Passes (settings : CleanupSettings) (defaults : RuleDefaults) :
    Nat → Stored → Stored → Prop
  | none (s : Stored) : Passes settings defaults 0 s s
  | next {n : Nat} {s u v t : Stored} {result : Except PassFailure Action}
      (now : Leads May (pass settings defaults s.object).run s result u)
      (succeeds : u.failed = false) (later : s.clock ≤ u.clock)
      (apart : u.clock + settings.retryInterval ≤ v.clock)
      (same : v = { u with clock := v.clock })
      (rest : Passes settings defaults n v t) : Passes settings defaults (n + 1) s t

/-- The first pass has to wait for the interval after the last attempt. -/
def waits (settings : CleanupSettings) (s : Stored) : Bool :=
  match s.record.lastError, s.record.lastAttempt with
  | some _, some last => decide (s.clock < last.instant + settings.retryInterval)
  | _, _ => false

/-- The attempts that are left, the pass that lets the Service go, and the pass
that waits. -/
def passesLeft (settings : CleanupSettings) (s : Stored) : Nat :=
  settings.maxRetries.toNat - s.attempts.toNat + 1 + (waits settings s).toNat

/-! ## One pass -/

theorem of?_of_destination {o : ServiceObject} (h : Deleting o)
    (hdestination : ServiceView.destinationOf o = .ok destination) :
    ∃ view, ServiceView.of? o = .ok view ∧ view.key = o.key ∧
      view.annotations = o.annotations ∧
      view.deleting = true ∧
        view.hasFinalizer = o.finalizers.contains Mark.finalizer := by
  obtain ⟨ns, hns⟩ := Option.isSome_iff_exists.mp h.namespace
  obtain ⟨name, hname⟩ := Option.isSome_iff_exists.mp h.name
  unfold ServiceView.of?
  simp only [hns, hname, hdestination]
  refine ⟨_, rfl, ?_, rfl, h.deleting, rfl⟩
  unfold ServiceObject.key
  rw [hns, hname]
  rfl

theorem of?_of_unreadable {o : ServiceObject} {e : ViewError} (h : Deleting o)
    (hunreadable : ServiceView.destinationOf o = .error e) :
    ServiceView.of? o = .error e := by
  obtain ⟨ns, hns⟩ := Option.isSome_iff_exists.mp h.namespace
  obtain ⟨name, hname⟩ := Option.isSome_iff_exists.mp h.name
  unfold ServiceView.of?
  simp only [hns, hname, hunreadable]
  rfl

theorem Deleting.of_marked {o o' : ServiceObject} (h : Deleting o)
    (hmarked : Marked o o') : Deleting o' := by
  rw [hmarked.rest]
  exact ⟨h.deleting, h.namespace, h.name⟩

/-- What can have come of a pass for a Service that is being deleted. -/
def Advanced (settings : CleanupSettings) (s t : Stored) : Prop :=
  (Mark.finalizer ∉ s.object.finalizers ∧ t.object = s.object) ∨
    (Mark.finalizer ∈ s.object.finalizers ∧ ∃ r, Ended settings s r t)

theorem Advanced.marked (h : Advanced settings s t) : Marked s.object t.object := by
  rcases h with ⟨-, hkept⟩ | ⟨-, r, hmarked, -⟩
  · exact hkept ▸ .refl _
  · exact hmarked

theorem pass_advances (hdeleting : Deleting s.object)
    (hdestination : ServiceView.destinationOf s.object = .ok destination) :
    Ensures May Eq (fun _ _ _ => True) (fun _ t => Advanced settings s t)
      (pass settings defaults s.object).run s := by
  obtain ⟨view, hview, hkey, hannotations, hdoomed, hfinalizer⟩ :=
    of?_of_destination hdeleting hdestination
  have hpass : pass settings defaults s.object = cleanUp settings view := by
    unfold pass passFor
    simp [hview, hdoomed]
  rw [hpass]
  unfold cleanUp
  by_cases hheld : view.hasFinalizer = true
  · rw [if_pos hheld]
    have hseen : s.SeenAs view := by
      refine ⟨hkey, ?_⟩
      unfold ServiceView.annotation? ServiceObject.annotation?
      rw [hannotations]
    have hon : Mark.finalizer ∈ s.object.finalizers := by
      rw [hfinalizer] at hheld
      simpa using hheld
    have hcleaned : Ensures May Eq (fun _ _ _ => True) (Ended settings s)
        (Cleanup.pass settings view).run s :=
      (pass_ensures settings hseen).mono (fun _ _ _ _ => trivial) fun _ _ h => h
    -- the lock and the memory have nothing to do with the Service
    refine Ensures.locked ((Apart.ensures (asks_request (r := .lock _) trivial) s).imp ?_)
    rintro _ s rfl
    have hunlocked : ∀ u, Advanced settings s u →
        Ensures May Eq (fun _ _ _ => True) (fun _ v => Advanced settings s v)
          (request (.unlock view.key)) u := by
      intro u hu
      refine (Apart.ensures (asks_request (r := .unlock _) trivial) u).imp ?_
      rintro _ u rfl
      exact hu
    have hadvanced : Ensures May Eq (fun _ _ _ => True) (fun _ t => Advanced settings s t)
        (Cleanup.pass settings view).run s :=
      hcleaned.imp fun r t h => Or.inr ⟨hon, r, h⟩
    refine hadvanced.adaptThen (fun outcome t ht => ?_) fun e t ht => hunlocked t ht
    cases outcome with
    | retry after attempts error => exact ensures_done (hunlocked t ht)
    | completed removed | forced attempts =>
        refine (Apart.ensures (asks_forget view.key trivial trivial) t).liftThen ?_
        rintro _ t rfl
        exact ensures_done (hunlocked t ht)
  · rw [if_neg hheld]
    have hoff : Mark.finalizer ∉ s.object.finalizers := by
      rw [hfinalizer] at hheld
      simpa using hheld
    refine (Apart.ensures (asks_request (r := .memory _) trivial) s).liftThen ?_
    rintro _ t rfl
    exact ensures_done (Or.inl ⟨hoff, rfl⟩)

def Past (s : Stored) : Prop :=
  ∀ last ∈ s.record.lastAttempt, last.instant ≤ s.clock

theorem waits_eq_true_iff : waits settings s = true ↔
    ∃ error last, s.record.lastError = some error ∧ s.record.lastAttempt = some last ∧
      s.clock < last.instant + settings.retryInterval := by
  unfold waits
  constructor
  · intro h
    split at h
    · next error last herror hlast =>
        exact ⟨error, last, herror, hlast, of_decide_eq_true h⟩
    · exact absurd h (by simp)
  · rintro ⟨error, last, herror, hlast, hlt⟩
    rw [herror, hlast]
    exact decide_eq_true hlt

theorem waits_of_retryWait {time : Timestamp} {after : Nat} (htime : time.Reading)
    (hclock : s.clock ≤ time.instant)
    (h : s.record.retryWait settings.retryInterval time = some after) :
    waits settings s = true := by
  unfold CleanupRecord.retryWait at h
  split at h
  · next error last herror hlast =>
      dsimp only at h
      obtain ⟨hshort, -⟩ := Option.ite_none_right_eq_some.mp h
      refine waits_eq_true_iff.mpr ⟨error, last, herror, hlast, ?_⟩
      have hsince : time.instant - last.instant ≤ time.since last :=
        Timestamp.instant_sub_le_since htime
      unfold Timestamp.elapsed at hshort
      omega
  · exact absurd h (by simp)

theorem waits_eq_false (h : ∀ last ∈ s.record.lastAttempt,
    last.instant + settings.retryInterval ≤ s.clock) : waits settings s = false := by
  rw [Bool.eq_false_iff]
  intro hwaits
  obtain ⟨error, last, -, hlast, hlt⟩ := waits_eq_true_iff.mp hwaits
  have hle := h last hlast
  omega

/-- **A pass lets the Service go, or there are fewer passes to come.** -/
theorem pass_progress {result : Except PassFailure Action}
    (hdeleting : Deleting s.object)
    (hdestination : ServiceView.destinationOf s.object = .ok destination)
    (hgone : s.gone = false) (hpast : Past s)
    (hpass : Leads May (pass settings defaults s.object).run s result u)
    (hfailed : u.failed = false) (hclock : s.clock ≤ u.clock)
    (hapart : u.clock + settings.retryInterval ≤ v.clock)
    (hsame : v = { u with clock := v.clock }) :
    Marked s.object v.object ∧ v.gone = false ∧
      (Mark.finalizer ∉ v.object.finalizers ∨
        Past v ∧ passesLeft settings v < passesLeft settings s) := by
  have hstill : u.gone = false := (gone_of_leads hpass hfailed).trans hgone
  have hobject : v.object = u.object := by rw [hsame]
  have hrecord : v.record = u.record := record_of_object (congrArg _ hobject)
  have hattempts : v.attempts = u.attempts := congrArg CleanupRecord.attempts hrecord
  have hadvanced := hpass.of_ensures (pass_advances hdeleting hdestination)
  refine ⟨hobject ▸ hadvanced.marked, by rw [hsame]; exact hstill, ?_⟩
  rw [hobject]
  have hreleased : u.Released → Mark.finalizer ∉ u.object.finalizers := by
    rintro (hgone | hoff)
    · exact absurd (hstill.symm.trans hgone) (by decide)
    · exact hoff
  rcases hadvanced with ⟨hoff, hkept⟩ | ⟨-, r, -, hended⟩
  · exact Or.inl (hkept ▸ hoff)
  cases r with
  | error e => exact absurd (hfailed.symm.trans hended) (by decide)
  | ok outcome =>
      cases outcome with
      | completed removed => exact Or.inl (hreleased hended.2)
      | forced attempts => exact Or.inl (hreleased hended.2)
      | retry after attempts error =>
          right
          rcases hended with ⟨hkept, time, hreading, hshown, hwait⟩ |
            ⟨hlt, -, hcount, time, hreading, hshown, hlast⟩
          · -- it held off, and an interval later it will not
            have hunchanged : v.record = s.record :=
              hrecord.trans (record_of_object (congrArg _ hkept))
            have hwaited : waits settings s = true :=
              waits_of_retryWait hreading (hshown ▸ hclock) hwait
            have hnever : waits settings v = false := by
              refine waits_eq_false fun last hlast => ?_
              have hle := hpast last (hunchanged ▸ hlast)
              omega
            refine ⟨fun last hlast => ?_, ?_⟩
            · have hle := hpast last (hunchanged ▸ hlast)
              omega
            · unfold passesLeft Stored.attempts
              rw [hunchanged, hnever, hwaited]
              exact Nat.lt_succ_self _
          · -- it was an attempt, and an interval later the next one is due
            have hattempted : v.record.lastAttempt = some time := hrecord ▸ hlast
            have hnever : waits settings v = false := by
              refine waits_eq_false fun last hlast => ?_
              obtain rfl : time = last := Option.some.inj (hattempted.symm.trans hlast)
              omega
            have hnext : v.attempts.toNat = s.attempts.toNat + 1 := by
              rw [hattempts, hcount, toNat_succ_of_lt hlt]
            refine ⟨fun last hlast => ?_, ?_⟩
            · obtain rfl : time = last := Option.some.inj (hattempted.symm.trans hlast)
              omega
            · rw [UInt32.lt_iff_toNat_lt] at hlt
              unfold passesLeft
              rw [hnext, hnever]
              show _ + 0 < _
              omega

/-! ## One pass after another -/

theorem Passes.again {result : Except PassFailure Action}
    (hinterval : settings.retryInterval = 0)
    (now : Leads May (pass settings defaults s.object).run s result u)
    (succeeds : u.failed = false) (later : s.clock ≤ u.clock)
    (rest : Passes settings defaults n u t) :
    Passes settings defaults (n + 1) s t := by
  refine .next now succeeds later ?_ rfl rest
  rw [hinterval]
  exact Int.le_of_eq (Int.add_zero _)

theorem Passes.stays_off (h : Passes settings defaults n s t)
    (hdeleting : Deleting s.object)
    (hdestination : ServiceView.destinationOf s.object = .ok destination)
    (hoff : Mark.finalizer ∉ s.object.finalizers) :
    Mark.finalizer ∉ t.object.finalizers := by
  induction h with
  | none s => exact hoff
  | @next n s u v t result now succeeds later apart same rest ih =>
      have hkept : v.object = s.object := by
        rw [same]
        rcases now.of_ensures (pass_advances hdeleting hdestination) with
          ⟨-, hkept⟩ | ⟨hon, -⟩
        · exact hkept
        · exact absurd hon hoff
      rw [← hkept] at hdeleting hdestination hoff
      exact ih hdeleting hdestination hoff

theorem Passes.released (h : Passes settings defaults n s t)
    (hdeleting : Deleting s.object)
    (hdestination : ServiceView.destinationOf s.object = .ok destination)
    (hgone : s.gone = false) (hpast : Past s) (hn : passesLeft settings s ≤ n) :
    Mark.finalizer ∉ t.object.finalizers := by
  induction h with
  | none s =>
      unfold passesLeft at hn
      omega
  | @next n s u v t result now succeeds later apart same rest ih =>
      obtain ⟨hmarked, hstill, hoff | ⟨hpast', hfewer⟩⟩ :=
        pass_progress hdeleting hdestination
        hgone hpast now succeeds later apart same
      all_goals
        have hdeleting' := hdeleting.of_marked hmarked
        have hdestination' :=
          (ServiceView.destinationOf_of_marked hmarked).trans hdestination
      · exact rest.stays_off hdeleting' hdestination' hoff
      · exact ih hdeleting' hdestination' hstill hpast' (by omega)

/-- A Service with an address that is none is passed over, time after time. -/
theorem Passes.stuck {e : ViewError} (h : Passes settings defaults n s t)
    (hdeleting : Deleting s.object)
    (hunreadable : ServiceView.destinationOf s.object = .error e) :
    t.object = s.object := by
  induction h with
  | none s => rfl
  | @next n s u v t result now succeeds later apart same rest ih =>
      have hpass : (pass settings defaults s.object).run = .done (.error (.view e)) := by
        unfold pass
        rw [of?_of_unreadable hdeleting hunreadable]
        rfl
      rw [hpass] at now
      obtain ⟨-, rfl⟩ := leads_done.mp now
      have hkept : v.object = u.object := by rw [same]
      rw [← hkept] at hdeleting hunreadable
      exact (ih hdeleting hunreadable).trans hkept

/-- The first pass has to wait after a failure that takes no attempt from the
budget: there was no attempt, or there is no budget. -/
def waitsFirst (settings : CleanupSettings) (s : Stored) : Bool :=
  waits settings s && (s.attempts == 0 || settings.maxRetries == 0)

theorem passesLeft_le (settings : CleanupSettings) (s : Stored) :
    passesLeft settings s ≤
      settings.maxRetries.toNat + 1 + (waitsFirst settings s).toNat := by
  unfold passesLeft waitsFirst
  cases hwaits : waits settings s with
  | false =>
      simp only [Bool.false_and, Bool.toNat_false]
      omega
  | true =>
      rw [Bool.true_and]
      cases hempty : (s.attempts == 0 || settings.maxRetries == 0) with
      | true =>
          simp only [Bool.toNat_true]
          omega
      | false =>
          obtain ⟨hattempts, hmax⟩ := Bool.or_eq_false_iff.mp hempty
          have hcounted : s.attempts.toNat ≠ 0 := fun h =>
            beq_eq_false_iff_ne.mp hattempts (UInt32.toNat_inj.mp h)
          have hallowed : settings.maxRetries.toNat ≠ 0 := fun h =>
            beq_eq_false_iff_ne.mp hmax (UInt32.toNat_inj.mp h)
          simp only [Bool.toNat_true, Bool.toNat_false]
          omega

/-- **A Service that is being deleted is let go, if and only if the operator can
make out where its traffic goes**: after one pass more than there are attempts,
and one more where the first has to wait for nothing. Otherwise every pass leaves
it as it is. -/
theorem finalizer_removed (hdeleting : Deleting s.object) (hgone : s.gone = false)
    (hpast : Past s) (h : Passes settings defaults n s t) :
    (∀ destination, ServiceView.destinationOf s.object = .ok destination →
      settings.maxRetries.toNat + 1 + (waitsFirst settings s).toNat ≤ n →
      Mark.finalizer ∉ t.object.finalizers) ∧
    ∀ e, ServiceView.destinationOf s.object = .error e → t.object = s.object := by
  constructor
  · intro destination hdestination hn
    exact h.released hdeleting hdestination hgone hpast
      (Nat.le_trans (passesLeft_le settings s) hn)
  · intro e hunreadable
    exact h.stuck hdeleting hunreadable

end PortForwarding.Reconcile

/-! ## An address that is none -/

namespace PortForwarding.Sample

open Reconcile Script

theorem doomed_deleting : Deleting doomed.object :=
  ⟨rfl, rfl, rfl⟩

theorem doomed_past : Past doomed := by
  have hnone : doomed.record.lastAttempt = none := rfl
  intro last hlast
  exact absurd (hnone.symm.trans hlast) (by simp)

def afterPass (s : Stored) : Stored :=
  (run (Stored.answer epoch) (pass oneAttempt {} s.object).run s).2

theorem doomed_passes :
    Passes oneAttempt {} 2 doomed (afterPass (afterPass doomed)) := by
  have hleads (s : Stored) :
      Leads Stored.May (pass oneAttempt {} s.object).run s _ (afterPass s) :=
    leads_run (Stored.answer_may epoch_reading) _ s
  refine .again rfl (hleads doomed) (by decide +kernel) (by decide +kernel) ?_
  exact .again rfl (hleads _) (by decide +kernel) (by decide +kernel) (.none _)

def misaddressed : Stored :=
  { doomed with
    object := doomed.object.patch (.annotations [(Mark.ipAddress, some "nowhere")]) }

end PortForwarding.Sample

namespace PortForwarding.Reconcile

open Sample

theorem finalizer_removed_sample :
    (∀ destination, ServiceView.destinationOf doomed.object = .ok destination →
      oneAttempt.maxRetries.toNat + 1 + (waitsFirst oneAttempt doomed).toNat ≤ 2 →
      Mark.finalizer ∉ (afterPass (afterPass doomed)).object.finalizers) ∧
    ∀ e, ServiceView.destinationOf doomed.object = .error e →
      (afterPass (afterPass doomed)).object = doomed.object :=
  finalizer_removed doomed_deleting rfl doomed_past doomed_passes

/-- **No pass lets this Service go**, though every call succeeds. -/
theorem deletion_blocked :
    ∃ (settings : CleanupSettings) (defaults : RuleDefaults) (s t : Stored) (n : Nat),
      Deleting s.object ∧ Mark.finalizer ∈ s.object.finalizers ∧
      s.gone = false ∧ Past s ∧
      Passes settings defaults n s t ∧ settings.maxRetries.toNat + 1 ≤ n ∧
      Mark.finalizer ∈ t.object.finalizers := by
  have hpass : Script.Leads Stored.May (pass oneAttempt
    {} misaddressed.object).run misaddressed
      (.error (.view (.invalidAddress "nowhere"))) misaddressed := .done _ _
  have hnone : misaddressed.record.lastAttempt = none := rfl
  refine ⟨oneAttempt, {}, misaddressed, misaddressed, 2,
    ⟨rfl, rfl, rfl⟩, by decide, rfl, ?_, ?_, by decide, by decide⟩
  · intro last hlast
    exact absurd (hnone.symm.trans hlast) (by simp)
  · exact .again rfl hpass rfl (Int.le_refl _)
      (.again rfl hpass rfl (Int.le_refl _) (.none _))

end PortForwarding.Reconcile
