import PortForwarding.Proofs.Limiter
import PortForwarding.Proofs.Pass.Guard
import PortForwarding.Proofs.Reservations.Holders
import PortForwarding.Proofs.Script.Amid

/-!
# What is in memory goes with the finalizer

A Service with the finalizer that is being deleted, or that asks for nothing any
more, is let go when its rules are gone, when its attempts are used up, or when
its annotation is. In all three ways the finalizer is taken off first, and only
then is what the memory holds of the Service given up: its ports, its latest
failure and its failed attempts (`Leaves`). A pass that does not get so far leaves
the memory alone (`Stays`). So nobody can claim a port of the Service while it
still has the finalizer.

Nothing is supposed of the router and the API, and others may use the memory at
any time, as long as they leave what is held of this Service as it is.
-/

namespace PortForwarding

open Script

/-! ## What the memory holds of a Service -/

def MemoryCall.Elsewhere (key : ServiceKey) : MemoryCall → Prop
  | .claim k _ | .retain k _ | .release k _ | .releaseAll k
  | .countRetry k | .resetRetries k => k ≠ key
  | .observe subject _ | .remaining subject | .forget subject => subject ≠ key.text

namespace Memory

variable {key : ServiceKey} {m m' m'' : Memory}

/-- Each step is answered at some time, and everything else leaves the
memory alone. -/
def May : Possible Memory
  | m, .memory call, reply, m' => ∃ now, call.answer now m = (reply, m')
  | m, _, _, m' => m' = m

structure SameFor (key : ServiceKey) (m m' : Memory) : Prop where
  ports : ∀ port, port ∈ m'.reservations.portsOf key ↔ port ∈ m.reservations.portsOf key
  failure : m'.limiter.entries.get? key.text = m.limiter.entries.get? key.text
  attempts : m'.retries.counts.get? key = m.retries.counts.get? key

/-- Nothing is held of the Service. -/
structure Lacks (key : ServiceKey) (m : Memory) : Prop where
  ports : m.reservations.portsOf key = []
  failure : m.limiter.entries.get? key.text = none
  attempts : m.retries.counts.get? key = none

/-- What was not held of the Service before is not held afterwards. -/
structure Shrinks (key : ServiceKey) (m m' : Memory) : Prop where
  ports : ∀ port ∈ m'.reservations.portsOf key, port ∈ m.reservations.portsOf key
  failure : m.limiter.entries.get? key.text = none →
    m'.limiter.entries.get? key.text = none
  attempts : m.retries.counts.get? key = none → m'.retries.counts.get? key = none

theorem SameFor.refl (key : ServiceKey) (m : Memory) : SameFor key m m :=
  ⟨fun _ => Iff.rfl, rfl, rfl⟩

theorem SameFor.trans (h : SameFor key m m') (h' : SameFor key m' m'') :
    SameFor key m m'' where
  ports port := (h'.ports port).trans (h.ports port)
  failure := h'.failure.trans h.failure
  attempts := h'.attempts.trans h.attempts

theorem SameFor.shrinks (h : SameFor key m m') : Shrinks key m m' where
  ports port := (h.ports port).mp
  failure := h.failure.trans
  attempts := h.attempts.trans

theorem Shrinks.refl (key : ServiceKey) (m : Memory) : Shrinks key m m :=
  (SameFor.refl key m).shrinks

theorem Shrinks.trans (h : Shrinks key m m') (h' : Shrinks key m' m'') :
    Shrinks key m m'' where
  ports port hport := h.ports port (h'.ports port hport)
  failure := h'.failure ∘ h.failure
  attempts := h'.attempts ∘ h.attempts

theorem portsOf_releaseAll (r : Reservations) (key : ServiceKey) :
    (r.releaseAll key).portsOf key = [] := by
  rw [List.eq_nil_iff_forall_not_mem]
  intro port hport
  rw [Reservations.mem_portsOf, Reservations.releaseAll,
    Reservations.holder?_retain] at hport
  split at hport
  · simp at hport
  · next hother => exact hother ⟨hport, List.not_mem_nil⟩

/-- A port that changes hands among others is none of the Service's, before
and after. -/
theorem mem_portsOf_of_foreign {r r' : Reservations} {port : UInt16}
    (h : r'.holder? port = r.holder? port ∨
      (r.holder? port ≠ some key ∧ r'.holder? port ≠ some key)) :
    port ∈ r'.portsOf key ↔ port ∈ r.portsOf key := by
  rw [Reservations.mem_portsOf, Reservations.mem_portsOf]
  rcases h with heq | ⟨hbefore, hafter⟩
  · rw [heq]
  · exact iff_of_false hafter hbefore

theorem mem_portsOf_of_given {r r' : Reservations} {k : ServiceKey}
    {port : UInt16} {P : Prop} [Decidable (P ∧ r.holder? port = some k)]
    (hother : k ≠ key)
    (h : r'.holder? port = if P ∧
      r.holder? port = some k then none else r.holder? port) :
    port ∈ r'.portsOf key ↔ port ∈ r.portsOf key := by
  apply mem_portsOf_of_foreign
  split at h
  · next hown => exact Or.inr ⟨by simpa [hown.2] using hother, by simp [h]⟩
  · exact Or.inl h

/-- **A step that is about others leaves alone what is held of the Service.** -/
theorem sameFor_of_elsewhere {call : MemoryCall} (h : call.Elsewhere key)
    (now : Nat) (m : Memory) : SameFor key m (call.answer now m).2 := by
  cases call with
  | claim k ports =>
      simp only [MemoryCall.answer]
      cases hclaim : m.reservations.claim k ports with
      | error c => exact .refl key m
      | ok r =>
          obtain ⟨hfree, hholder⟩ := Reservations.holder?_of_claim hclaim
          refine ⟨fun port => mem_portsOf_of_foreign ?_, rfl, rfl⟩
          by_cases hport : port ∈ ports
          · have hother : some k ≠ some key := fun heq => h (Option.some.inj heq)
            refine Or.inr ⟨fun hown => h (hfree port hport key hown).symm, ?_⟩
            rwa [hholder, if_pos hport]
          · exact Or.inl (by rw [hholder, if_neg hport])
  | retain k keep =>
      refine ⟨fun port => mem_portsOf_of_given (P := port ∉ keep) h ?_, rfl, rfl⟩
      simp only [MemoryCall.answer, Reservations.holder?_retain, and_comm]
  | release k p =>
      refine ⟨fun port => mem_portsOf_of_given (P := port = p) h ?_, rfl, rfl⟩
      exact Reservations.holder?_release
  | releaseAll k =>
      refine ⟨fun port => mem_portsOf_of_given (P := port ∉ []) h ?_, rfl, rfl⟩
      simp only [MemoryCall.answer, Reservations.releaseAll,
        Reservations.holder?_retain, and_comm]
  | observe subject error =>
      refine ⟨fun _ => Iff.rfl, ?_, rfl⟩
      exact (Limiter.get?_observe _ _ _ _ _).trans (if_neg h)
  | remaining subject => exact .refl key m
  | forget subject =>
      exact ⟨fun _ => Iff.rfl, (Table.get?_erase _ _ _).trans (if_neg h), rfl⟩
  | countRetry k =>
      exact ⟨fun _ => Iff.rfl, rfl, (Table.get?_set _ _ _ _).trans (if_neg h)⟩
  | resetRetries k =>
      exact ⟨fun _ => Iff.rfl, rfl, (Table.get?_erase _ _ _).trans (if_neg h)⟩

end Memory

/-! ## What is asked for -/

/-- A request that, whatever it is answered, neither takes a finalizer off nor
goes to the memory. -/
def Request.Harmless : Request → Prop
  | .memory _ | .store (.get _) | .store (.patch _ (.finalizers _)) => False
  | _ => True

namespace Parting

def memoryCall? : Exchange → Option MemoryCall
  | ⟨.memory call, _⟩ => some call
  | _ => none

/-- An answer by which the operator's finalizer is off a Service: the Service is
gone or does not have it, or its finalizers have been written. -/
def TakesOff : Exchange → Prop
  | ⟨.store (.get _), .ok o⟩ => Mark.finalizer ∉ o.finalizers
  | ⟨.store (.get _), .error e⟩ => e.isNotFound = true
  | ⟨.store (.patch _ (.finalizers _)), .ok _⟩ => True
  | _ => False

/-- **The pass does not get so far**: the memory is not called, and no answer says
that the finalizer is off. -/
def Stays (log : List Exchange) : Prop :=
  ∀ x ∈ log, memoryCall? x = none ∧ ¬TakesOff x

def Removed (key : ServiceKey) (log : List Exchange) : Prop :=
  ∃ during, during <:+: log ∧ Runs (Mark.removeFinalizer key).run during (.ok ())

/-- **The Service is let go**: the finalizer is taken off, and after that the
memory is called for these steps and no others. -/
def Leaves (key : ServiceKey) (steps : List MemoryCall) (log : List Exchange) :
    Prop :=
  ∃ first during last, log = first ++ (during ++ last) ∧ Stays first ∧
    Runs (Mark.removeFinalizer key).run during (.ok ()) ∧
      last.filterMap memoryCall? = steps

/-- The steps by which the memory gives up what it holds of a Service. -/
def givingUp (key : ServiceKey) : List MemoryCall :=
  [.releaseAll key, .forget key.text, .resetRetries key]

section

variable {key : ServiceKey} {log before after : List Exchange}
  {steps : List MemoryCall}

theorem idle_of_harmless {x : Exchange} (h : x.1.Harmless) :
    memoryCall? x = none ∧ ¬TakesOff x := by
  obtain ⟨r, reply⟩ := x
  cases r with
  | memory call => exact h.elim
  | store call =>
      cases call with
      | list => exact ⟨rfl, not_false⟩
      | get key => exact h.elim
      | patch key change =>
          cases change with
          | finalizers names => exact h.elim
          | annotations changes => exact ⟨rfl, not_false⟩
  | router _ | publish _ _ | cancelled | now | lock _ | unlock _ => exact ⟨rfl, not_false⟩

theorem stays_of_asks {α : Type} {script : Script α} {a : α}
    (hasks : Asks Request.Harmless script) (h : Runs script log a) : Stays log :=
  fun x hx => idle_of_harmless (hasks.runs h x hx)

theorem stays_nil : Stays [] :=
  List.forall_mem_nil _

theorem Stays.append (h : Stays before) (h' : Stays after) :
    Stays (before ++ after) :=
  List.forall_mem_append.mpr ⟨h, h'⟩

theorem stays_one {r : Request} (reply : r.Reply) (hr : r.Harmless) :
    Stays [⟨r, reply⟩] :=
  List.forall_mem_singleton.mpr (idle_of_harmless hr)

theorem Leaves.follow (h : Leaves key steps log) (hbefore : Stays before) :
    Leaves key steps (before ++ log) := by
  obtain ⟨first, during, last, rfl, hfirst, hduring, hlast⟩ := h
  exact ⟨before ++ first, during, last, by simp, hbefore.append hfirst, hduring, hlast⟩

theorem Leaves.extend {later : List MemoryCall} (h : Leaves key steps log)
    (hlater : after.filterMap memoryCall? = later) :
    Leaves key (steps ++ later) (log ++ after) := by
  obtain ⟨first, during, last, rfl, hfirst, hduring, rfl⟩ := h
  obtain rfl := hlater
  exact ⟨first, during, last ++ after, by simp, hfirst, hduring, List.filterMap_append⟩

/-! ## Taking the finalizer off -/

/-- **The finalizer is taken off**: the Service is read, and unless it is gone or
has no finalizer of the operator's by now, its list of finalizers is written
without it. -/
inductive Detaching (key : ServiceKey) : List Exchange → Except StoreError Unit → Prop
  | unread (e : StoreError) (hthere : e.isNotFound = false) :
      Detaching key [⟨.store (.get key), .error e⟩] (.error e)
  | gone (e : StoreError) (hgone : e.isNotFound = true) :
      Detaching key [⟨.store (.get key), .error e⟩] (.ok ())
  | off (o : ServiceObject) (hoff : Mark.finalizer ∉ o.finalizers) :
      Detaching key [⟨.store (.get key), .ok o⟩] (.ok ())
  | written (o : ServiceObject) (reply : Except StoreError Unit)
      (hheld : Mark.finalizer ∈ o.finalizers) :
      Detaching key [⟨.store (.get key), .ok o⟩,
        ⟨.store (.patch key (.finalizers (Mark.withoutOwn o.finalizers))), reply⟩] reply

theorem detaching_of_runs {result : Except StoreError Unit}
    (h : Runs (Mark.removeFinalizer key).run log result) :
    Detaching key log result := by
  unfold Mark.removeFinalizer Mark.currentFinalizers at h
  rw [run_tryBind] at h
  obtain ⟨_, names, _, rfl, hcurrent, hrest⟩ := runs_bind.mp h
  obtain ⟨_, reply, _, rfl, hget, hdone⟩ := runs_bind.mp hcurrent
  obtain rfl := runs_request.mp hget
  cases reply with
  | ok o =>
      obtain ⟨rfl, rfl⟩ := runs_done.mp hdone
      dsimp only at hrest
      split at hrest
      · next hheld =>
          obtain rfl := runs_request.mp hrest
          exact .written o result (by simpa using hheld)
      · next hoff =>
          obtain ⟨rfl, rfl⟩ := runs_done.mp hrest
          exact .off o (by simpa using hoff)
  | error e =>
      cases hgone : e.isNotFound with
      | true =>
          simp only [hgone, if_true] at hdone
          obtain ⟨rfl, rfl⟩ := runs_done.mp hdone
          obtain ⟨rfl, rfl⟩ := runs_done.mp hrest
          exact .gone e hgone
      | false =>
          simp only [hgone] at hdone
          obtain ⟨rfl, rfl⟩ := runs_done.mp hdone
          obtain ⟨rfl, rfl⟩ := runs_done.mp hrest
          exact .unread e hgone

/-- Where the finalizer could not be taken off, no answer says that it is. -/
theorem Detaching.stays {e : StoreError} (h : Detaching key log (.error e)) :
    Stays log := by
  cases h with
  | unread e hthere => simp [Stays, memoryCall?, TakesOff, hthere]
  | written o reply hheld => simp [Stays, memoryCall?, TakesOff, hheld]

theorem Detaching.exists_takesOff (h : Detaching key log (.ok ())) :
    ∃ x ∈ log, TakesOff x := by
  cases h with
  | gone e hgone => exact ⟨_, List.mem_cons_self, hgone⟩
  | off o hoff => exact ⟨_, List.mem_cons_self, hoff⟩
  | written o reply hheld => exact ⟨_, List.mem_cons_of_mem _ List.mem_cons_self, trivial⟩

theorem Detaching.not_memory {result : Except StoreError Unit}
    (h : Detaching key log result) : ∀ x ∈ log, memoryCall? x = none := by
  cases h <;> simp [memoryCall?]

theorem Stays.not_removed (h : Stays log) : ¬Removed key log := by
  rintro ⟨during, hduring, hruns⟩
  obtain ⟨x, hx, hoff⟩ := (detaching_of_runs hruns).exists_takesOff
  exact (h x (hduring.subset hx)).2 hoff

theorem Leaves.removed (h : Leaves key steps log) : Removed key log := by
  obtain ⟨first, during, last, rfl, -, hduring, -⟩ := h
  exact ⟨during, ⟨first, last, by simp⟩, hduring⟩

theorem isPrefix_of_notMem {first last : List Exchange} {x : Exchange}
    (hlog : first ++ last = before ++ x :: after) (hx : x ∉ first) :
    first <+: before := by
  rcases List.append_eq_append_iff.mp hlog with ⟨more, rfl, -⟩ | ⟨more, heq, hmore⟩
  · exact List.prefix_append _ _
  · cases more with
    | nil => exact ⟨[], by simpa using heq⟩
    | cons y more =>
        obtain ⟨rfl, -⟩ := List.cons.inj hmore
        exact absurd (heq ▸ List.mem_append_right _ List.mem_cons_self) hx

/-- **The finalizer is off before the memory is called.** -/
theorem Leaves.removed_before (h : Leaves key steps log) {call : MemoryCall}
    {reply : call.Reply} (hlog : log = before ++ ⟨.memory call, reply⟩ :: after) :
    Removed key before := by
  obtain ⟨first, during, last, rfl, hfirst, hduring, -⟩ := h
  rw [← List.append_assoc] at hlog
  have hearly : ⟨.memory call, reply⟩ ∉ first ++ during := by
    intro hmem
    have hnone : memoryCall? ⟨.memory call, reply⟩ = none :=
      (List.mem_append.mp hmem).elim (fun hx => (hfirst _ hx).1)
        ((detaching_of_runs hduring).not_memory _)
    exact absurd hnone (by simp [memoryCall?])
  obtain ⟨more, rfl⟩ := isPrefix_of_notMem hlog hearly
  exact ⟨during, ⟨first, more, rfl⟩, hduring⟩

end

end Parting

/-! ## What becomes of the memory -/

namespace Memory

open Parting

variable {key : ServiceKey} {m m' : Memory} {log : List Exchange} {call : MemoryCall}

theorem eq_of_may {x : Exchange} (hx : memoryCall? x = none)
    (h : May m x.1 x.2 m') : m' = m := by
  obtain ⟨r, reply⟩ := x
  cases r with
  | memory call => exact absurd hx (by simp [memoryCall?])
  | router _ | store _ | publish _ _ | cancelled | now | lock _ | unlock _ => exact h

theorem answer_of_may {x : Exchange} (hx : memoryCall? x = some call)
    (h : May m x.1 x.2 m') : ∃ now, m' = (call.answer now m).2 := by
  obtain ⟨r, reply⟩ := x
  cases r with
  | memory c =>
      obtain rfl := Option.some.inj hx
      obtain ⟨now, hanswer⟩ := h
      exact ⟨now, by rw [hanswer]⟩
  | router _ | store _ | publish _ _ | cancelled | now | lock _ | unlock _ =>
      exact absurd hx (by simp [memoryCall?])

theorem sameFor_of_stays (hstays : Stays log)
    (h : Answered (Amid (SameFor key) May) m log m') :
    SameFor key m m' := by
  refine h.preserves (P := SameFor key m) ?_ (.refl key m)
  rintro s x t hx hs ⟨u, hothers, hmay⟩
  obtain rfl := eq_of_may (hstays x hx).1 hmay
  exact hs.trans hothers

theorem shrinks_of_givingUp (hcall : call ∈ givingUp key) (now : Nat) (m : Memory) :
    Shrinks key m (call.answer now m).2 := by
  simp only [givingUp, List.mem_cons, List.not_mem_nil, or_false] at hcall
  rcases hcall with rfl | rfl | rfl
  · refine ⟨fun port hport => ?_, id, id⟩
    exact absurd hport (by simp [MemoryCall.answer, portsOf_releaseAll])
  · exact ⟨fun _ => id, fun _ => by simp [MemoryCall.answer, Limiter.reset], id⟩
  · exact ⟨fun _ => id, id, fun _ => by simp [MemoryCall.answer, RetryCounts.reset]⟩

/-- While the memory is called for nothing but to give up what it holds of the
Service, it comes to hold no more of it. -/
theorem shrinks_of_answered
    (hsteps : ∀ call ∈ log.filterMap memoryCall?, call ∈ givingUp key)
    (h : Answered (Amid (SameFor key) May) m log m') : Shrinks key m m' := by
  refine h.preserves (P := Shrinks key m) ?_ (.refl key m)
  rintro s x t hx hs ⟨u, hothers, hmay⟩
  refine (hs.trans hothers.shrinks).trans ?_
  cases hcall : memoryCall? x with
  | none =>
      obtain rfl := eq_of_may hcall hmay
      exact .refl key t
  | some call =>
      obtain ⟨now, rfl⟩ := answer_of_may hcall hmay
      exact shrinks_of_givingUp
        (hsteps call (List.mem_filterMap.mpr ⟨x, hx, hcall⟩)) now u

/-- Each of the steps has been made, and from there on no more has come to
be held. -/
theorem exists_step (call : MemoryCall) (hcall : call ∈ givingUp key)
    (hsteps : log.filterMap memoryCall? = givingUp key)
    (h : Answered (Amid (SameFor key) May) m log m') :
    ∃ now u, Shrinks key (call.answer now u).2 m' := by
  obtain ⟨x, hx, heq⟩ := List.mem_filterMap.mp (hsteps ▸ hcall)
  obtain ⟨before, after, rfl⟩ := List.append_of_mem hx
  obtain ⟨s, -, hrest⟩ := answered_append.mp h
  obtain ⟨t, ⟨u, -, hmay⟩, hafter⟩ := answered_cons.mp hrest
  obtain ⟨now, rfl⟩ := answer_of_may heq hmay
  refine ⟨now, u, shrinks_of_answered (fun c hc => ?_) hafter⟩
  rw [← hsteps, List.filterMap_append, List.filterMap_cons, heq]
  exact List.mem_append_right _ (List.mem_cons_of_mem _ hc)

/-- **After all of the steps nothing is held of the Service.** -/
theorem lacks_of_answered (hsteps : log.filterMap memoryCall? = givingUp key)
    (h : Answered (Amid (SameFor key) May) m log m') : Lacks key m' := by
  obtain ⟨_, _, hports⟩ := exists_step (.releaseAll key) (by simp [givingUp]) hsteps h
  obtain ⟨_, _, hfailure⟩ := exists_step (.forget key.text) (by simp [givingUp]) hsteps h
  obtain ⟨_, _, hattempts⟩ :=
    exists_step (.resetRetries key) (by simp [givingUp]) hsteps h
  refine ⟨List.eq_nil_iff_forall_not_mem.mpr fun port hport => ?_, ?_, ?_⟩
  · exact absurd (hports.ports port hport)
      (by simp [MemoryCall.answer, portsOf_releaseAll])
  · exact hfailure.failure (by simp [MemoryCall.answer, Limiter.reset])
  · exact hattempts.attempts (by simp [MemoryCall.answer, RetryCounts.reset])

theorem lacks_of_leaves (hleaves : Leaves key (givingUp key) log)
    (h : Answered (Amid (SameFor key) May) m log m') : Lacks key m' := by
  obtain ⟨first, during, last, rfl, -, -, hsteps⟩ := hleaves
  obtain ⟨_, -, hrest⟩ := answered_append.mp h
  obtain ⟨_, -, hlast⟩ := answered_append.mp hrest
  exact lacks_of_answered hsteps hlast

end Memory

/-! ## The ways of letting a Service go -/

namespace Parting

open Cleanup

variable {settings : CleanupSettings} {defaults : RuleDefaults}
  {service : ServiceObject} {view : ServiceView} {key : ServiceKey}
  {log : List Exchange}

/-- The finalizer is taken off, the ports are given up, and the rest follows; or
the finalizer could not be taken off. -/
theorem runs_lettingGo {α : Type} {rest : ExceptT StoreError Script α}
    {result : Except StoreError α} (h : Runs (do
        Mark.removeFinalizer key
        memory (.releaseAll key)
        rest : ExceptT StoreError Script α).run log result) :
    (Stays log ∧ ∃ e, result = .error e) ∨
      ∃ last, Leaves key (.releaseAll key :: last.filterMap memoryCall?) log ∧
        Runs rest.run last result := by
  rcases runs_tryBind.mp h with ⟨during, _, _, rfl, hduring, hrest⟩ | ⟨e, hfailed, rfl⟩
  · obtain ⟨_, _, last, rfl, hrelease, hlast⟩ := runs_liftThen.mp hrest
    obtain rfl := runs_request.mp hrelease
    exact Or.inr ⟨last, ⟨[], during, _, rfl, stays_nil, hduring, rfl⟩, hlast⟩
  · exact Or.inl ⟨(detaching_of_runs hfailed).stays, e, rfl⟩

theorem stays_of_annotate {changes : List (String × Option String)}
    {result : Except StoreError Unit}
    (h : Runs (Mark.annotate key changes).run log result) : Stays log :=
  stays_of_asks (Mark.asks_annotate changes trivial) h

def LetsGo : CleanupOutcome → Prop
  | .retry _ _ _ => False
  | .completed _ | .forced _ => True

/-- **How a cleanup pass comes out, and whether the Service is let go in it.** -/
def Cleaned (view : ServiceView) (log : List Exchange)
    (result : Except StoreError CleanupOutcome) : Prop :=
  (Stays log ∧ ∀ outcome, result = .ok outcome → ¬LetsGo outcome) ∨
    (Leaves view.key [.releaseAll view.key] log ∧ ∃ outcome,
      result = .ok outcome ∧ LetsGo outcome)

theorem Cleaned.follow {before : List Exchange}
    {result : Except StoreError CleanupOutcome} (h : Cleaned view log result)
    (hbefore : Stays before) : Cleaned view (before ++ log) result :=
  h.imp (fun ⟨hstays, hresult⟩ => ⟨hbefore.append hstays, hresult⟩)
    fun ⟨hleaves, hresult⟩ => ⟨hleaves.follow hbefore, hresult⟩

theorem complete_runs {removed : Nat} {result : Except StoreError Unit}
    (h : Runs (complete view removed).run log result) :
    (Stays log ∧ ∃ e, result = .error e) ∨
      (Leaves view.key [.releaseAll view.key] log ∧ result = .ok ()) := by
  rcases runs_tryBind.mp h with ⟨_, _, _, rfl, hcleared, hrest⟩ | ⟨e, hcleared, rfl⟩
  · have hbefore := stays_of_annotate hcleared
    rcases runs_lettingGo hrest with ⟨hstays, hresult⟩ | ⟨last, hleaves, htold⟩
    · exact Or.inl ⟨hbefore.append hstays, hresult⟩
    · obtain ⟨_, ⟨⟩, _, rfl, hpublish, hdone⟩ := runs_bind.mp htold
      obtain rfl := runs_request.mp hpublish
      obtain ⟨rfl, rfl⟩ := runs_done.mp hdone
      exact Or.inr ⟨hleaves.follow hbefore, rfl⟩
  · exact Or.inl ⟨stays_of_annotate hcleared, e, rfl⟩

theorem force_runs {record : CleanupRecord}
    {result : Except StoreError CleanupOutcome}
    (h : Runs (force view record).run log result) : Cleaned view log result := by
  obtain ⟨_, ⟨⟩, _, rfl, htold, hrest⟩ := runs_liftThen.mp h
  obtain rfl := runs_request.mp htold
  refine Cleaned.follow ?_ (stays_one _ trivial)
  rcases runs_tryBind.mp hrest with ⟨_, _, _, rfl, hpersist, hgoes⟩ | ⟨e, hpersist, rfl⟩
  · refine Cleaned.follow ?_ (stays_of_annotate hpersist)
    rcases runs_lettingGo hgoes with ⟨hstays, e, rfl⟩ | ⟨last, hleaves, hdone⟩
    · exact Or.inl ⟨hstays, nofun⟩
    · obtain ⟨rfl, rfl⟩ := runs_done.mp hdone
      exact Or.inr ⟨hleaves, _, rfl, trivial⟩
  · exact Or.inl ⟨stays_of_annotate hpersist, nofun⟩

theorem attempt_runs {record : CleanupRecord}
    {result : Except StoreError CleanupOutcome}
    (h : Runs (attempt settings view record).run log result) :
    Cleaned view log result := by
  obtain ⟨_, time, _, rfl, hnow, hrest⟩ := runs_liftThen.mp h
  obtain rfl := runs_request.mp hnow
  refine Cleaned.follow ?_ (stays_one _ trivial)
  rcases runs_tryBind.mp hrest with ⟨_, _, _, rfl, hstart, hgoes⟩ | ⟨e, hstart, rfl⟩
  · obtain ⟨removing, reply, _, rfl, hremove, hends⟩ := runs_liftThen.mp hgoes
    have hremoving : Stays removing :=
      stays_of_asks (asks_removeOwned view.key trivial fun _ => trivial) hremove
    refine Cleaned.follow (Cleaned.follow ?_ hremoving) (stays_of_annotate hstart)
    cases reply with
    | ok removed =>
        rcases runs_tryBind.mp hends with ⟨_, _, _, rfl, hcomplete, hdone⟩ | ⟨e,
          hcomplete, rfl⟩
        · obtain ⟨rfl, rfl⟩ := runs_done.mp hdone
          rw [List.append_nil]
          rcases complete_runs hcomplete with ⟨-, e, heq⟩ | ⟨hleaves, -⟩
          · exact absurd heq (by simp)
          · exact Or.inr ⟨hleaves, _, rfl, trivial⟩
        · rcases complete_runs hcomplete with ⟨hstays, -⟩ | ⟨-, heq⟩
          · exact Or.inl ⟨hstays, nofun⟩
          · exact absurd heq (by simp)
    | error complaint =>
        rcases runs_tryBind.mp hends with ⟨_, _, _, rfl, hnote, hdone⟩ | ⟨e, hnote, rfl⟩
        · obtain ⟨rfl, rfl⟩ := runs_done.mp hdone
          rw [List.append_nil]
          exact Or.inl ⟨stays_of_annotate hnote,
            fun _ heq => Except.ok.inj heq ▸ not_false⟩
        · exact Or.inl ⟨stays_of_annotate hnote, nofun⟩
  · exact Or.inl ⟨stays_of_annotate hstart, nofun⟩

theorem cleanup_runs {result : Except StoreError CleanupOutcome}
    (h : Runs (pass settings view).run log result) : Cleaned view log result := by
  obtain ⟨_, time, _, rfl, hnow, hrest⟩ := runs_liftThen.mp h
  obtain rfl := runs_request.mp hnow
  refine Cleaned.follow ?_ (stays_one _ trivial)
  split at hrest
  · obtain ⟨rfl, rfl⟩ := runs_done.mp hrest
    exact Or.inl ⟨stays_nil, fun _ heq => Except.ok.inj heq ▸ not_false⟩
  · split at hrest
    · exact force_runs hrest
    · exact attempt_runs hrest

/-- The pass does not get so far as to let the Service go, or it does, and then
the memory gives up what it holds of the Service. -/
def Parted (key : ServiceKey) (log : List Exchange) : Prop :=
  Stays log ∨ Leaves key (givingUp key) log

theorem Parted.follow {before : List Exchange} (h : Parted key log)
    (hbefore : Stays before) : Parted key (before ++ log) :=
  h.imp hbefore.append fun hleaves => hleaves.follow hbefore

theorem forget_runs (h : Runs (Reconcile.forget key) log ()) :
    log = [⟨.memory (.forget key.text), ()⟩, ⟨.memory (.resetRetries key), ()⟩] := by
  obtain ⟨_, ⟨⟩, _, rfl, hforget, hreset⟩ := runs_bind.mp h
  obtain rfl := runs_request.mp hforget
  obtain rfl := runs_request.mp hreset
  rfl

theorem letGo_runs {result : Except StoreError Unit}
    (h : Runs (Reconcile.letGo view).run log result) : Parted view.key log := by
  rcases runs_tryBind.mp h with ⟨_, _, _, rfl, hcleared, hrest⟩ | ⟨e, hcleared, rfl⟩
  · refine Parted.follow ?_ (stays_of_annotate hcleared)
    rcases runs_lettingGo hrest with ⟨hstays, -⟩ | ⟨last, hleaves, hforgotten⟩
    · exact Or.inl hstays
    · obtain ⟨_, ⟨⟩, _, rfl, hforget, hdone⟩ := runs_bind.mp hforgotten
      obtain rfl := forget_runs hforget
      obtain ⟨rfl, rfl⟩ := runs_done.mp hdone
      exact Or.inr hleaves
  · exact Or.inl (stays_of_annotate hcleared)

theorem cleanUp_runs (hheld : view.hasFinalizer = true)
    {result : Except PassFailure Action}
    (h : Runs (Reconcile.cleanUp settings view).run log result) :
    Parted view.key log := by
  unfold Reconcile.cleanUp at h
  rw [if_pos hheld] at h
  obtain ⟨during, rfl, hbody⟩ := runs_locked.mp h
  have hlock : Stays [⟨.lock view.key, ()⟩] := stays_one _ trivial
  have hunlock : Stays [⟨.unlock view.key, ()⟩] := stays_one _ trivial
  refine Parted.follow ?_ hlock
  rcases runs_tryBind.mp hbody with ⟨_, outcome, _, rfl, hpass, hrest⟩ | ⟨e, hpass, rfl⟩
  · rcases cleanup_runs (runs_adapt_ok.mp hpass) with
      ⟨hstays, hout⟩ | ⟨hleaves, _, heq, hout⟩
    · cases outcome with
      | retry after attempts error =>
          obtain ⟨rfl, rfl⟩ := runs_done.mp hrest
          exact Or.inl ((hstays.append stays_nil).append hunlock)
      | completed removed | forced attempts => exact absurd trivial (hout _ rfl)
    · obtain rfl := Except.ok.inj heq
      cases outcome with
      | retry after attempts error => exact hout.elim
      | completed removed | forced attempts =>
          obtain ⟨_, ⟨⟩, _, rfl, hforget, hdone⟩ := runs_liftThen.mp hrest
          obtain rfl := forget_runs hforget
          obtain ⟨rfl, rfl⟩ := runs_done.mp hdone
          exact Or.inr ((hleaves.extend rfl).extend rfl)
  · obtain ⟨e', hfailed, -⟩ := runs_adapt_error.mp hpass
    rcases cleanup_runs hfailed with ⟨hstays, -⟩ | ⟨-, _, heq, -⟩
    · exact Or.inl (hstays.append hunlock)
    · exact absurd heq (by simp)

/-- **How a pass goes for a Service with the finalizer that is being deleted or
asks for nothing any more.** -/
theorem parted_of_runs (hheld : Mark.finalizer ∈ service.finalizers)
    (hparting : service.deleting = true ∨
      ∀ view, ServiceView.of? service = .ok view → view.qualifies = false)
    {result : Except PassFailure Action}
    (h : Runs (Reconcile.pass settings defaults service).run log result) :
    Parted service.key log := by
  unfold Reconcile.pass at h
  cases hview : ServiceView.of? service with
  | error e =>
      simp only [hview] at h
      obtain ⟨-, rfl⟩ := runs_done.mp h
      exact Or.inl stays_nil
  | ok view =>
      obtain ⟨hkey, -, hfinalizer⟩ := ServiceView.of?_ok hview
      have hseen : view.hasFinalizer = true := by simpa [hfinalizer] using hheld
      simp only [hview] at h
      unfold Reconcile.passFor at h
      rw [← hkey]
      split at h
      · exact cleanUp_runs hseen h
      · next hliving =>
          have hneedless : view.qualifies = false := by
            refine hparting.elim (fun hdeleting => absurd ?_ hliving) fun hnone =>
              hnone view hview
            exact (ServiceView.deleting_of_seen hview).trans hdeleting
          simp only [hneedless, hseen, Bool.not_false, if_true] at h
          rcases runs_tryBind.mp h with ⟨_, _, _, rfl, hletGo, hdone⟩ | ⟨e, hletGo, -⟩
          · obtain ⟨-, rfl⟩ := runs_done.mp hdone
            rw [List.append_nil]
            exact letGo_runs (runs_adapt_ok.mp hletGo)
          · obtain ⟨e', hfailed, -⟩ := runs_adapt_error.mp hletGo
            exact letGo_runs hfailed

end Parting

open Parting

/-- **The memory holds what it did of the Service, or nothing any more and the
finalizer is off.** It is not even called before that. A Service that is not being
deleted is let go without a word to the router, whatever fails. -/
theorem memory_follows_finalizer (settings : CleanupSettings)
    (defaults : RuleDefaults) (service : ServiceObject) (log : List Exchange)
    (result : Except PassFailure Action)
    (hheld : Mark.finalizer ∈ service.finalizers)
    (hparting : service.deleting = true ∨
      ∀ view, ServiceView.of? service = .ok view → view.qualifies = false)
    (h : Runs (Reconcile.pass settings defaults service).run log result) :
    (service.deleting = false → ∀ x ∈ log, ¬x.1.OnRouter) ∧
    (∀ before (call : MemoryCall) (reply : call.Reply) after,
      log = before ++ ⟨.memory call, reply⟩ :: after → Removed service.key before) ∧
    ∀ m m', Answered (Amid (Memory.SameFor service.key) Memory.May) m log m' →
      (Removed service.key log ∧ Memory.Lacks service.key m') ∨
      (¬Removed service.key log ∧ Memory.SameFor service.key m m') := by
  refine ⟨fun hliving => ?_, ?_⟩
  · refine (Reconcile.guarded_of_runs h).idle hliving (hparting.resolve_left ?_)
    simp [hliving]
  · rcases parted_of_runs hheld hparting h with hstays | hleaves
    · refine ⟨?_, fun m m' hanswered => ?_⟩
      · rintro before call reply after rfl
        have hnone := (hstays ⟨.memory call, reply⟩ (by simp)).1
        exact absurd hnone (by simp [memoryCall?])
      · exact Or.inr ⟨hstays.not_removed, Memory.sameFor_of_stays hstays hanswered⟩
    · refine ⟨fun before call reply after hlog => hleaves.removed_before hlog, ?_⟩
      exact fun m m' hanswered =>
        Or.inl ⟨hleaves.removed, Memory.lacks_of_leaves hleaves hanswered⟩

end PortForwarding

/-! ## A Service that asks for nothing any more -/

namespace PortForwarding.Sample

open Script

def retired : ServiceObject :=
  { service with annotations := [] }

def condemned : ServiceObject :=
  { retired with deleting := true }

def occupied : Memory :=
  { Memory.empty with
    reservations := ⟨[(80, service.key), (443, neighbour.key)], by decide⟩ }

/-- The neighbour claims another port, time and again; the API makes every change
or none, and the router takes no calls. -/
def meddled (grants : Bool) : Surroundings Memory := fun r m =>
  let m := (MemoryCall.answer 0 m (.claim neighbour.key [8443])).2
  match r with
  | .memory call => call.answer 0 m
  | .store (.get _) => (.ok retired, m)
  | .store (.patch _ _) => (if grants then .ok () else .error (.refused 500 "down"), m)
  | .store .list => (.ok [], m)
  | .router call => (Stored.refusal call, m)
  | .publish _ _ | .lock _ | .unlock _ => ((), m)
  | .now => (.midnight .epoch, m)
  | .cancelled => (false, m)

theorem meddled_may (grants : Bool) (r : Request) (m : Memory) :
    Amid (Memory.SameFor service.key) Memory.May m r (meddled grants r m).1
      (meddled grants r m).2 := by
  have hother : (MemoryCall.claim neighbour.key [8443]).Elsewhere service.key := by
    show neighbour.key ≠ service.key
    decide
  refine ⟨_, Memory.sameFor_of_elsewhere hother 0 m, ?_⟩
  cases r with
  | memory call => exact ⟨0, rfl⟩
  | store call => cases call <;> rfl
  | router _ | publish _ _ | cancelled | now | lock _ | unlock _ => rfl

def meddledLog (grants : Bool) (o : ServiceObject) : List Exchange :=
  (trace (meddled grants) (Reconcile.pass {} {} o).run occupied).map Prod.fst

def meddledMemory (grants : Bool) (o : ServiceObject) : Memory :=
  (run (meddled grants) (Reconcile.pass {} {} o).run occupied).2

theorem answered_meddled (grants : Bool) (o : ServiceObject) :
    Answered (Amid (Memory.SameFor service.key) Memory.May) occupied
      (meddledLog grants o) (meddledMemory grants o) :=
  answered_trace (f := id) (P := fun _ => True) (fun r m _ => meddled_may grants r m)
    (fun _ _ _ => trivial) _ trivial

end PortForwarding.Sample

namespace PortForwarding

open Parting Sample Script

theorem memory_follows_finalizer_retired :
    (∀ x ∈ meddledLog true retired, ¬x.1.OnRouter) ∧
    Removed retired.key (meddledLog true retired) ∧
    Memory.Lacks retired.key (meddledMemory true retired) ∧
    ¬Removed retired.key (meddledLog false retired) ∧
    Memory.SameFor retired.key occupied (meddledMemory false retired) := by
  have hneedless : ∀ v, ServiceView.of? retired = .ok v → v.qualifies = false := by
    intro v hv
    obtain rfl : { view with annotations := [] } = v := Except.ok.inj hv
    rfl
  obtain ⟨hrouter, -, hgranted⟩ := memory_follows_finalizer {} {} retired
    (meddledLog true retired) _ (by decide) (Or.inr hneedless) (runs_trace _ _ _)
  obtain ⟨-, -, hrefused⟩ := memory_follows_finalizer {} {} retired
    (meddledLog false retired) _ (by decide) (Or.inr hneedless) (runs_trace _ _ _)
  have hbefore : 80 ∈ occupied.reservations.portsOf retired.key :=
    Reservations.mem_portsOf.mpr rfl
  have hgiven : 80 ∉ (meddledMemory true retired).reservations.portsOf retired.key := by
    rw [Reservations.mem_portsOf]
    decide +kernel
  have hkept : 80 ∈ (meddledMemory false retired).reservations.portsOf retired.key := by
    rw [Reservations.mem_portsOf]
    decide +kernel
  refine ⟨hrouter rfl, ?_⟩
  rcases hgranted _ _ (answered_meddled true retired) with ⟨hremoved, hlacks⟩ | ⟨-, hsame⟩
  · rcases hrefused _ _ (answered_meddled false retired) with ⟨-, hlacks'⟩ | hsame
    · exact absurd hkept (by simp [hlacks'.ports])
    · exact ⟨hremoved, hlacks, hsame⟩
  · exact absurd ((hsame.ports 80).mpr hbefore) hgiven

/-- A Service that asks for nothing any more and is being deleted is cleaned up
after: the router is called for it. -/
theorem condemned_on_router :
    Mark.finalizer ∈ condemned.finalizers ∧
    (∀ view, ServiceView.of? condemned = .ok view → view.qualifies = false) ∧
    ∃ log result, Runs (Reconcile.pass {} {} condemned).run log result ∧
      ∃ x ∈ log, x.1.OnRouter := by
  refine ⟨by decide, fun v hv => ?_, meddledLog true condemned, _, runs_trace _ _ _, ?_⟩
  · obtain rfl : { view with annotations := [], deleting := true } = v := Except.ok.inj hv
    rfl
  · have hlisted : (meddledLog true condemned)[4]? =
        some ⟨.router .list, .error (.unreachable "down")⟩ := rfl
    exact ⟨_, List.mem_of_getElem? hlisted, trivial⟩

end PortForwarding
