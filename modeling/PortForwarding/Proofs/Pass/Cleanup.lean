import PortForwarding.Proofs.Pass.Asks
import PortForwarding.Proofs.Record.Cleanup
import PortForwarding.Proofs.Service.Stored

/-!
# One pass of a cleanup

What a cleanup pass does to the Service, step by step and in the end, whatever the
router answers and whichever calls to the API fail. The steps are about the
attempts that the record on the Service counts (`Accounts`): the router is called
only after the count was raised, and the count goes down only where the record is
cleared. The end is about what can have come of the pass (`Ended`).
-/

namespace PortForwarding

open Script

namespace Stored

def record (s : Stored) : CleanupRecord :=
  CleanupRecord.decode (s.object.annotation? Mark.cleanupState)

def attempts (s : Stored) : UInt32 :=
  s.record.attempts

/-- The view shows the Service with the record that it carries. -/
structure SeenAs (s : Stored) (view : ServiceView) : Prop where
  key : view.key = s.object.key
  annotation : view.annotation? Mark.cleanupState = s.object.annotation? Mark.cleanupState

end Stored

namespace Cleanup

open Stored

variable {settings : CleanupSettings} {view : ServiceView} {record : CleanupRecord}
  {n : UInt32} {s t u : Stored} {x : Exchange}

/-- The exchange takes the record off the Service. -/
def clears : Exchange → Bool
  | ⟨.store (.patch _ (.annotations changes)), .ok ()⟩ =>
    changes.lookup Mark.cleanupState == some none
  | _ => false

def callsRouter : Exchange → Bool
  | ⟨.router _, _⟩ => true
  | _ => false

/-- The count is the one that a pass found, or one more, or none after the record
was cleared. -/
def Bounded (settings : CleanupSettings) (n a : UInt32) : Prop :=
  a = 0 ∨ a = n ∨ (a = n + 1 ∧ n < settings.maxRetries)

/-- How a step of a pass that found `n` attempts counted goes with the count. -/
structure Accounts (settings : CleanupSettings) (n : UInt32) (s : Stored)
    (x : Exchange) (t : Stored) : Prop where
  bound : Bounded settings n t.attempts
  grows : clears x = true ∨ s.attempts ≤ t.attempts
  router : callsRouter x = true → t = s ∧ s.attempts = n + 1 ∧ n < settings.maxRetries

def Ended (settings : CleanupSettings) (s : Stored)
    (r : Except StoreError CleanupOutcome) (t : Stored) : Prop :=
  Marked s.object t.object ∧ match r with
  | .ok (.retry after _ _) =>
    (t.object = s.object ∧ ∃ time : Timestamp, time.Reading ∧ time.instant = t.clock ∧
      s.record.retryWait settings.retryInterval time = some after) ∨
    (s.attempts < settings.maxRetries ∧ t.object.finalizers = s.object.finalizers ∧
      t.attempts = s.attempts + 1 ∧
      ∃ time : Timestamp, time.Reading ∧ time.instant = t.clock ∧
        t.record.lastAttempt = some time)
  | .ok (.completed _) => s.attempts < settings.maxRetries ∧ t.Released
  | .ok (.forced _) => settings.maxRetries ≤ s.attempts ∧ t.Released
  | .error _ => t.failed = true

/-! ## The record on the Service -/

theorem record_of_object (h : t.object.annotations = s.object.annotations) :
    t.record = s.record := by
  unfold Stored.record ServiceObject.annotation?
  rw [h]

/-- A step that leaves the annotations alone, and does not call the router. -/
theorem accounts_of_annotations (h : t.object.annotations = s.object.annotations)
    (hs : Bounded settings n s.attempts)
    (hx : callsRouter x = false) : Accounts settings n s x t := by
  have hattempts : t.attempts = s.attempts :=
    congrArg CleanupRecord.attempts (record_of_object h)
  refine ⟨by rw [hattempts]; exact hs,
    Or.inr (by rw [hattempts]; exact UInt32.le_refl _), ?_⟩
  exact fun hcalls => absurd (hcalls.symm.trans hx) (by decide)

theorem record_of_persist {object : ServiceObject}
    (h : Patched (.annotations [(Mark.cleanupState, some record.encode)])
      s.object object) (hdated : record.Dated) :
    Stored.record { s with object := object } =
      { record with version := CleanupRecord.currentVersion } := by
  have hlookup : object.annotation? Mark.cleanupState = some record.encode :=
    h.1 Mark.cleanupState
  unfold Stored.record
  rw [hlookup]
  exact CleanupRecord.decode_encode hdated

theorem marked_of_persist {object : ServiceObject}
    (h : Patched (.annotations [(Mark.cleanupState, some record.encode)])
      s.object object) :
    Marked s.object object := by
  refine h.marked_of_annotations fun name hname => ?_
  have hne : name ≠ Mark.cleanupState := by
    rintro rfl
    exact hname (by decide)
  have hbeq : (name == Mark.cleanupState) = false := beq_false_of_ne hne
  simp [List.lookup_cons, hbeq]

/-! ## The stages of a pass -/

def Persisted (u : Stored) (record : CleanupRecord) (r : Except StoreError Unit)
    (t : Stored) : Prop :=
  Marked u.object t.object ∧ t.object.finalizers = u.object.finalizers ∧
    t.clock = u.clock ∧ match r with
    | .ok () => t.record = { record with version := CleanupRecord.currentVersion }
    | .error _ => t.failed = true

theorem persist_ensures (hkey : view.key = u.object.key) (hdated : record.Dated)
    (hu : Bounded settings n u.attempts)
    (hrecord : Bounded settings n record.attempts)
    (hgrows : u.attempts ≤ record.attempts) :
    Ensures May Eq (Accounts settings n) (Persisted u record)
      (persist view record).run u := by
  refine annotate_ensures (by simp) hkey (fun object hpatched => ?_) fun e => ?_
  · have hwritten := record_of_persist hpatched hdated
    have hattempts : Stored.attempts { u with object := object } = record.attempts := by
      unfold Stored.attempts
      rw [hwritten]
    refine ⟨⟨hattempts ▸ hrecord, Or.inr (hattempts ▸ hgrows), nofun⟩,
      marked_of_persist hpatched, ?_, rfl, hwritten⟩
    rw [hpatched.2]
  · exact ⟨accounts_of_annotations rfl hu rfl, .refl _, rfl, rfl, rfl⟩

theorem apart_ensures {r : Request} (hr : Apart r)
    (hs : Bounded settings n s.attempts)
    (hrouter : ∀ call, r = .router call →
      s.attempts = n + 1 ∧ n < settings.maxRetries) :
    Ensures May Eq (Accounts settings n) (fun _ t => t = s) (request r) s := by
  refine ensures_request ?_
  rintro _ rfl reply t hmay
  obtain rfl := hr.may hmay
  refine ⟨⟨hs, Or.inr (UInt32.le_refl _), fun hcalls => ⟨rfl, ?_⟩⟩, rfl⟩
  cases r with
  | router call => exact hrouter call rfl
  | store _ | memory _ | publish _ _ | cancelled | now | lock _ | unlock _ =>
      exact nomatch hcalls

theorem removeOwned_ensures (key : ServiceKey) (hs : s.attempts = n + 1)
    (hn : n < settings.maxRetries) :
    Ensures May Eq (Accounts settings n) (fun _ t => t = s)
      (removeOwned key).run s := by
  have hasks : Asks (fun r => ∃ call, r = .router call) (removeOwned key).run :=
    asks_removeOwned key ⟨_, rfl⟩ fun _ => ⟨_, rfl⟩
  refine hasks.ensures (P := fun t => t = s) ?_ ?_ rfl
  · rintro t u rfl rfl
    rfl
  · rintro t r reply u ⟨call, rfl⟩ rfl hmay
    obtain rfl : u = t := hmay
    exact ⟨⟨Or.inr (Or.inr ⟨hs, hn⟩), Or.inr (UInt32.le_refl _),
      fun _ => ⟨rfl, hs, hn⟩⟩, rfl⟩

theorem unhold_ensures {key : ServiceKey} (hkey : key = s.object.key)
    (hs : Bounded settings n s.attempts) :
    Ensures May Eq (Accounts settings n) (Unheld s)
      (Mark.removeFinalizer key).run s := by
  refine removeFinalizer_ensures hkey ?_
  intro u x v hx hu hv
  have hattempts : u.attempts = s.attempts :=
    congrArg CleanupRecord.attempts (record_of_object hu)
  refine accounts_of_annotations (hv.trans hu.symm) (hattempts ▸ hs) ?_
  obtain ⟨request, reply⟩ := x
  cases request with
  | store call => rfl
  | router _ | memory _ | publish _ _ | cancelled | now | lock _ | unlock _ =>
      exact hx.elim

/-- The Service has been let go, or a call to the API has failed on the way. -/
def Completed (s : Stored) (r : Except StoreError Unit) (t : Stored) : Prop :=
  Marked s.object t.object ∧ match r with
  | .ok () => t.Released
  | .error _ => t.failed = true

theorem complete_ensures (hkey : view.key = s.object.key)
    (hs : Bounded settings n s.attempts) (removed : Nat) :
    Ensures May Eq (Accounts settings n) (Completed s)
      (complete view removed).run s := by
  have hcleared : Ensures May Eq (Accounts settings n) (fun r t =>
    Marked s.object t.object ∧ match r with
      | .ok () => t.attempts = 0
      | .error _ => t.failed = true)
      (Mark.annotate view.key (Mark.operatorState.map fun name =>
          (name, none))).run s := by
    refine annotate_ensures (by decide) hkey (fun object hpatched => ?_) fun e => ?_
    · have hgone : object.annotation? Mark.cleanupState = none := by
        rw [hpatched.1, lookup_map_const, if_pos (by decide)]
        rfl
      have hattempts : Stored.attempts { s with object := object } = 0 := by
        unfold Stored.attempts Stored.record
        rw [hgone]
        rfl
      have hclears : clears ⟨.store (.patch view.key (.annotations
          (Mark.operatorState.map fun name => (name, none)))), .ok ()⟩ = true := rfl
      refine ⟨⟨Or.inl hattempts, Or.inl hclears, nofun⟩, ?_, hattempts⟩
      refine hpatched.marked_of_annotations fun name hname => ?_
      rw [lookup_map_const, if_neg hname]
    · exact ⟨accounts_of_annotations rfl hs rfl, .refl _, rfl⟩
  refine hcleared.andThenTry ?_ fun e t h => h
  rintro _ t ⟨hmarked, hzero⟩
  have hbound : Bounded settings n t.attempts := Or.inl hzero
  refine (unhold_ensures (hkey.trans hmarked.key.symm) hbound).andThenTry ?_
    fun e u h => ⟨hmarked.trans h.1, h.2.2⟩
  rintro _ u ⟨hsame, hannotations, hreleased⟩
  have hstill : Bounded settings n u.attempts :=
    Or.inl ((congrArg CleanupRecord.attempts (record_of_object hannotations)).trans hzero)
  have hforgotten : Ensures May Eq (Accounts settings n) (fun v w => w = u)
      (memory (.releaseAll view.key)) u :=
    apart_ensures (r := .memory _) trivial hstill fun _ h => nomatch h
  refine hforgotten.liftThen ?_
  rintro _ u rfl
  have htold : Ensures May Eq (Accounts settings n) (fun _ w => w = u)
      (publish view.reference (completeNote removed)) u :=
    apart_ensures (r := .publish _ _) trivial hstill fun _ h => nomatch h
  refine Ensures.lift (htold.imp ?_)
  rintro _ u rfl
  exact ⟨hmarked.trans hsame, hreleased⟩

theorem force_ensures (hkey : view.key = s.object.key) (hdated : record.Dated)
    (hrecord : record.attempts = s.attempts)
    (hmax : settings.maxRetries ≤ s.attempts) :
    Ensures May Eq (Accounts settings s.attempts) (Ended settings s)
      (force view record).run s := by
  have hbound : Bounded settings s.attempts s.attempts := Or.inr (Or.inl rfl)
  have htold : Ensures May Eq (Accounts settings s.attempts) (fun _ t => t = s)
      (publish view.reference (forcedNote record)) s :=
    apart_ensures (r := .publish _ _) trivial hbound fun _ h => nomatch h
  refine htold.liftThen ?_
  rintro _ s rfl
  have hnoted : Ensures May Eq (Accounts settings s.attempts) _
      (persist view { record with status := .failedMaxRetries }).run s :=
    persist_ensures hkey hdated hbound (hrecord ▸ hbound) (hrecord ▸ UInt32.le_refl _)
  refine hnoted.andThenTry ?_ fun e t h => ⟨h.1, h.2.2.2⟩
  rintro _ t ⟨hmarked, -, -, hwritten⟩
  have hcount : t.attempts = s.attempts := by
    unfold Stored.attempts at *
    rw [hwritten]
    exact hrecord
  have hoff : Ensures May Eq (Accounts settings s.attempts) (Unheld t)
      (Mark.removeFinalizer view.key).run t :=
    unhold_ensures (hkey.trans hmarked.key.symm) (hcount ▸ hbound)
  refine hoff.andThenTry ?_ fun e u h => ⟨hmarked.trans h.1, h.2.2⟩
  rintro _ u ⟨hsame, hannotations, hreleased⟩
  have hfinal : u.attempts = s.attempts :=
    (congrArg CleanupRecord.attempts (record_of_object hannotations)).trans hcount
  have hforgotten : Ensures May Eq (Accounts settings s.attempts) (fun v w => w = u)
      (memory (.releaseAll view.key)) u :=
    apart_ensures (r := .memory _) trivial (hfinal ▸ hbound) fun _ h => nomatch h
  refine hforgotten.liftThen ?_
  rintro _ u rfl
  exact ensures_done ⟨hmarked.trans hsame, hmax, hreleased⟩

theorem toNat_succ_of_lt {a b : UInt32} (h : a < b) :
    (a + 1).toNat = a.toNat + 1 := by
  have hb := b.toNat_lt
  rw [UInt32.lt_iff_toNat_lt] at h
  have hone : (1 : UInt32).toNat = 1 := rfl
  rw [UInt32.toNat_add]
  omega

theorem le_succ_of_lt {a b : UInt32} (h : a < b) : a ≤ a + 1 := by
  rw [UInt32.le_iff_toNat_le, toNat_succ_of_lt h]
  exact Nat.le_succ _

theorem now_ensures (hs : Bounded settings n s.attempts) :
    Ensures May Eq (Accounts settings n) (fun time t => time.Reading ∧
      t = { s with clock := time.instant }) now s := by
  refine ensures_request (r := .now) ?_
  rintro _ rfl time t ⟨hreading, rfl⟩
  exact ⟨accounts_of_annotations rfl hs rfl, hreading, rfl⟩

/-- **An attempt is counted before the router is called**, and noted if it fails. -/
theorem attempt_ensures (hkey : view.key = s.object.key)
    (hs : s.attempts < settings.maxRetries) :
    Ensures May Eq (Accounts settings s.attempts) (Ended settings s)
      (attempt settings view s.record).run s := by
  have hbound : Bounded settings s.attempts s.attempts := Or.inr (Or.inl rfl)
  have hraised : Bounded settings s.attempts (s.attempts + 1) := Or.inr (Or.inr ⟨rfl, hs⟩)
  refine (now_ensures hbound).liftThen ?_
  rintro time t ⟨hreading, rfl⟩
  have hdated : (started s.record time).Dated := by
    intro last hlast
    obtain rfl : time = last := by simpa [started] using hlast
    exact hreading.readable
  have hnoted : Ensures May Eq (Accounts settings s.attempts) _
      (persist view (started s.record time)).run { s with clock := time.instant } :=
    persist_ensures hkey hdated hbound hraised (le_succ_of_lt hs)
  refine hnoted.andThenTry ?_ fun e t h => ⟨h.1, h.2.2.2⟩
  rintro _ t ⟨hmarked, hfinalizers, hclock, hwritten⟩
  have hcount : t.attempts = s.attempts + 1 := by
    unfold Stored.attempts
    rw [hwritten]
    rfl
  have hkey' : view.key = t.object.key := hkey.trans hmarked.key.symm
  refine (removeOwned_ensures view.key hcount hs).liftThen ?_
  rintro r t rfl
  cases r with
  | ok removed =>
      refine (complete_ensures hkey' (hcount ▸ hraised) removed).andThenTry ?_
        fun e u h => ⟨hmarked.trans h.1, h.2⟩
      rintro _ u ⟨hsame, hreleased⟩
      exact ensures_done ⟨hmarked.trans hsame, hs, hreleased⟩
  | error error =>
      have hagain : Ensures May Eq (Accounts settings s.attempts) _
          (persist view { started s.record time with lastError := some error }).run t :=
        persist_ensures hkey' hdated (hcount ▸ hraised) hraised
          (hcount ▸ UInt32.le_refl _)
      refine hagain.andThenTry ?_ fun e u h => ⟨hmarked.trans h.1, h.2.2.2⟩
      rintro _ u ⟨hsame, hstill, hsameClock, hfailed⟩
      refine ensures_done ⟨hmarked.trans hsame,
        Or.inr ⟨hs, hstill.trans hfinalizers, ?_, time,
        hreading, (hsameClock.trans hclock).symm, ?_⟩⟩
      · unfold Stored.attempts
        rw [hfailed]
        rfl
      · rw [hfailed]
        rfl

/-- **What a cleanup pass does**, for a Service that it sees as it is. -/
theorem pass_ensures (settings : CleanupSettings) (hseen : s.SeenAs view) :
    Ensures May Eq (Accounts settings s.attempts) (Ended settings s)
      (pass settings view).run s := by
  have hbound : Bounded settings s.attempts s.attempts := Or.inr (Or.inl rfl)
  have hrecord : CleanupRecord.decode (view.annotation? Mark.cleanupState) =
      s.record := by
    unfold Stored.record
    rw [hseen.annotation]
  unfold pass
  rw [hrecord]
  refine (now_ensures hbound).liftThen ?_
  rintro time t ⟨hreading, rfl⟩
  cases hwait : s.record.retryWait settings.retryInterval time with
  | some after =>
      exact ensures_done ⟨.refl _, Or.inl ⟨rfl, time, hreading, rfl, hwait⟩⟩
  | none =>
      -- reading the clock changes nothing of what the rest of the pass is about
      by_cases hspent : s.record.attempts ≥ settings.maxRetries
      · rw [if_pos hspent]
        have hdated : s.record.Dated := CleanupRecord.dated_decode _
        exact force_ensures (s := { s with clock := time.instant }) hseen.key
          hdated rfl hspent
      · rw [if_neg hspent]
        have hleft : s.attempts < settings.maxRetries := UInt32.not_le.mp hspent
        exact attempt_ensures (s := { s with clock := time.instant }) hseen.key hleft

end Cleanup

end PortForwarding

/-! ## A Service that is being deleted -/

namespace PortForwarding.Sample

def doomed : Stored :=
  { object :=
      { «namespace» := some "default"
        name := some "web"
        uid := none
        annotations := [(Mark.ports, "http")]
        finalizers := [Mark.finalizer]
        deleting := true
        ports := [⟨some "http", 80, none⟩]
        ingress := [some "10.0.0.5"] }
    gone := false
    failed := false
    clock := 0 }

def oneAttempt : CleanupSettings :=
  { maxRetries := 1, retryIntervalSeconds := 0 }

def epoch : Timestamp := .midnight .epoch

theorem epoch_reading : epoch.Reading :=
  ⟨by decide, by decide⟩

end PortForwarding.Sample
