import PortForwarding.Proofs.Pass.Aftermath
import PortForwarding.Proofs.Script.Amid
import PortForwarding.Proofs.Sweeping

/-!
# What the memory knows of failures, in the course of time

Two things are known of a Service whose passes fail: how often they have failed in
a row, and what the limiter has seen of the failure. Each pass goes on with them
as they are (`Kept`), until it forgets both (`Fresh`) or its own failure is
observed and counted. A pass that fails after its plan has been carried out has
forgotten its Service before it fails (`forgets`).

The router, the API, the locks and the signal to stop answer as they like, and
time passes as it likes. Others work on the memory and sweep over it meanwhile.
-/

namespace PortForwarding

/-! ## Counts and delays -/

theorem RetryCounts.get_increment (r : RetryCounts) (key other : ServiceKey) :
    (r.increment key).get other =
      if key = other then r.get key + 1 else r.get other := by
  unfold RetryCounts.get RetryCounts.increment
  rw [Table.get?_set]
  split <;> rfl

theorem RetryCounts.get_reset (r : RetryCounts) (key other : ServiceKey) :
    (r.reset key).get other = if key = other then 0 else r.get other := by
  unfold RetryCounts.get RetryCounts.reset
  rw [Table.get?_erase]
  split <;> rfl

namespace Backoff

variable {m n delay' after : Nat} {floor : Option Nat}

/-- Rounded up, a time is the least number of seconds that is long enough. -/
theorem ceilSeconds_le_iff {nanos : Nat} :
    ceilSeconds nanos ≤ n ↔ nanos ≤ Limiter.seconds n := by
  unfold ceilSeconds Limiter.seconds
  omega

theorem delay_transient (n : Nat) :
    delay n .transient =
      if maxAttempts ≤ n then none
      else some (min (baseDelay * 2 ^ (n - 1)) maxDelay) :=
  rfl

theorem delay_le_delay {a b : Nat} (h : m ≤ n) (ha : delay m .transient = some a)
    (hb : delay n .transient = some b) : a ≤ b := by
  rw [delay_transient] at ha hb
  split at ha
  · exact absurd ha (by simp)
  · split at hb
    · exact absurd hb (by simp)
    · obtain rfl := Option.some.inj ha
      obtain rfl := Option.some.inj hb
      have hpow : 2 ^ (m - 1) ≤ 2 ^ (n - 1) := Nat.pow_le_pow_right (by decide) (by omega)
      have hmul := Nat.mul_le_mul_left baseDelay hpow
      omega

theorem action_eq_awaitChange :
    action n .transient floor = .awaitChange ↔ maxAttempts ≤ n := by
  unfold action
  rw [delay_transient]
  by_cases h : maxAttempts ≤ n
  · simp [h]
  · simp [h]

/-- The next attempt waits for the delay and for the floor, in whole seconds. -/
theorem action_eq_requeue (h : action n .transient floor = .requeue after) :
    ∃ d, delay n .transient = some d ∧ d ≤ maxDelay ∧
      after = Limiter.seconds (max d (ceilSeconds (floor.getD 0))) := by
  unfold action at h
  rw [delay_transient] at h ⊢
  by_cases hlast : maxAttempts ≤ n
  · simp [hlast] at h
  · rw [if_neg hlast] at h ⊢
    refine ⟨_, rfl, Nat.min_le_right .., ?_⟩
    cases floor with
    | none => simpa [ceilSeconds, Limiter.seconds] using h.symm
    | some f => simpa [Limiter.seconds] using h.symm

end Backoff

end PortForwarding

namespace PortForwarding.Cadence

open Reconcile Script

/-! ## The memory in the course of time -/

/-- The memory that passes share, at a point in time. -/
structure Moment where
  memory : Memory
  time : Nat
  deriving DecidableEq

namespace Moment

def entry (m : Moment) (key : ServiceKey) : Option FailureEntry :=
  m.memory.limiter.entries.get? key.text

def failures (m : Moment) (key : ServiceKey) : Nat :=
  m.memory.retries.get key

/-- How long the limiter keeps the failure of a Service to itself, if it does. -/
def window (m : Moment) (key : ServiceKey) : Option Nat :=
  m.memory.limiter.remaining? key.text m.time

end Moment

def Elsewhere (key : ServiceKey) : Request → Prop
  | .memory (.observe subject _) | .memory (.forget subject) => subject ≠ key.text
  | .memory (.countRetry other) | .memory (.resetRetries other) => other ≠ key
  | _ => True

/-- What may happen meanwhile that is not the doing of a Service: time passes, the
memory is used for others, and a sweep goes over the limiter. -/
inductive Meanwhile (key : ServiceKey) (m : Moment) : Moment → Prop
  | idle : Meanwhile key m m
  | waited {n : Moment} (earlier : Meanwhile key m n) (time : Nat)
      (hlater : n.time ≤ time) : Meanwhile key m { n with time := time }
  | called {n : Moment} (earlier : Meanwhile key m n) (call : MemoryCall)
      (helsewhere : Elsewhere key (.memory call)) :
      Meanwhile key m { n with memory := (call.answer n.time n.memory).2 }
  | swept {n : Moment} (earlier : Meanwhile key m n) (ttl : Nat) :
      Meanwhile key m
        { n with memory := { n.memory with
          limiter := n.memory.limiter.purge n.time ttl } }

/-- The memory answers at the time at which it is asked; all else answers as
it likes. -/
def Clocked : Possible Moment := fun m r reply n =>
  match r, reply with
  | .memory call, reply =>
      (reply, n.memory) = call.answer m.time m.memory ∧ n.time = m.time
  | _, _ => n = m

/-- The memory, with others who use it before each of its answers. -/
def Around (key : ServiceKey) : Possible Moment :=
  Amid (Meanwhile key) Clocked

variable {key : ServiceKey} {m n u : Moment} {r : Request} {reply : r.Reply}

/-- The failures of a Service are as they were, save that the limiter may know of
them no more. -/
structure Kept (key : ServiceKey) (m n : Moment) : Prop where
  time : m.time ≤ n.time
  entry : n.entry key = m.entry key ∨ n.entry key = none
  failures : n.failures key = m.failures key

theorem Kept.refl (key : ServiceKey) (m : Moment) : Kept key m m :=
  ⟨Nat.le_refl _, Or.inl rfl, rfl⟩

theorem Kept.entry_or_none (h : Kept key m n) {entry : Option FailureEntry}
    (hm : m.entry key = entry ∨ m.entry key = none) :
    n.entry key = entry ∨ n.entry key = none := by
  rcases h.entry with hsame | hnone
  · rw [hsame]
    exact hm
  · exact Or.inr hnone

theorem Kept.entry_eq_none (h : Kept key m n) (hm : m.entry key = none) :
    n.entry key = none :=
  or_self_iff.mp (h.entry_or_none (Or.inl hm))

theorem Kept.trans (h : Kept key m n) (h' : Kept key n u) : Kept key m u :=
  ⟨Nat.le_trans h.time h'.time, h'.entry_or_none h.entry, h'.failures.trans h.failures⟩

theorem Elsewhere.answer {call : MemoryCall} (h : Elsewhere key (.memory call))
    (now : Nat) (memory : Memory) :
    (call.answer now memory).2.limiter.entries.get? key.text =
        memory.limiter.entries.get? key.text ∧
      (call.answer now memory).2.retries.get key = memory.retries.get key := by
  cases call with
  | claim other ports =>
      unfold MemoryCall.answer
      dsimp only
      split <;> exact ⟨rfl, rfl⟩
  | retain _ _ | release _ _ | releaseAll _ | remaining _ => exact ⟨rfl, rfl⟩
  | observe subject error =>
      have hother : subject ≠ key.text := h
      exact ⟨(Limiter.get?_observe ..).trans (if_neg hother), rfl⟩
  | forget subject =>
      have hother : subject ≠ key.text := h
      exact ⟨(Table.get?_erase ..).trans (if_neg hother), rfl⟩
  | countRetry other =>
      have hother : other ≠ key := h
      exact ⟨rfl, (RetryCounts.get_increment ..).trans (if_neg hother)⟩
  | resetRetries other =>
      have hother : other ≠ key := h
      exact ⟨rfl, (RetryCounts.get_reset ..).trans (if_neg hother)⟩

theorem Meanwhile.kept (h : Meanwhile key m n) : Kept key m n := by
  induction h with
  | idle => exact .refl key m
  | waited earlier time hlater ih => exact ih.trans ⟨hlater, Or.inl rfl, rfl⟩
  | @called n earlier call helsewhere ih =>
      obtain ⟨hentry, hfailures⟩ := helsewhere.answer n.time n.memory
      exact ih.trans ⟨Nat.le_refl _, Or.inl hentry, hfailures⟩
  | @swept n earlier ttl ih =>
      refine ih.trans ⟨Nat.le_refl _, ?_, rfl⟩
      show (n.memory.limiter.purge n.time ttl).entries.get? key.text = n.entry key ∨
        (n.memory.limiter.purge n.time ttl).entries.get? key.text = none
      rw [Limiter.get?_purge]
      show (n.entry key).filter _ = n.entry key ∨ (n.entry key).filter _ = none
      cases n.entry key with
      | none => exact Or.inl rfl
      | some e =>
          rw [Option.filter_some]
          split
          · exact Or.inl rfl
          · exact Or.inr rfl

/-! ## What a request does -/

theorem around_memory {call : MemoryCall} {reply : call.Reply}
    (h : Around key m (.memory call) reply n) :
    ∃ u, Kept key m u ∧ reply = (call.answer u.time u.memory).1 ∧
      n = ⟨(call.answer u.time u.memory).2, u.time⟩ := by
  obtain ⟨u, hmeanwhile, hanswer, htime⟩ := h
  refine ⟨u, hmeanwhile.kept, congrArg Prod.fst hanswer, ?_⟩
  have hmemory : n.memory = (call.answer u.time u.memory).2 := congrArg Prod.snd hanswer
  rw [← hmemory, ← htime]

theorem Elsewhere.kept (hr : Elsewhere key r) (h : Around key m r reply n) :
    Kept key m n := by
  cases r with
  | memory call =>
      obtain ⟨u, hu, -, rfl⟩ := around_memory h
      obtain ⟨hentry, hfailures⟩ := hr.answer u.time u.memory
      exact hu.trans ⟨Nat.le_refl _, Or.inl hentry, hfailures⟩
  | router _ | store _ | publish _ _ | cancelled | now | lock _ | unlock _ =>
      obtain ⟨u, hmeanwhile, hsame⟩ := h
      obtain rfl : n = u := hsame
      exact hmeanwhile.kept

theorem time_le_of_around (h : Around key m r reply n) : m.time ≤ n.time := by
  obtain ⟨u, hmeanwhile, hclocked⟩ := h
  have hnow : n.time = u.time := by
    cases r with
    | memory call => exact hclocked.2
    | router _ | store _ | publish _ _ | cancelled | now | lock _ | unlock _ =>
        exact congrArg Moment.time hclocked
  rw [hnow]
  exact hmeanwhile.kept.time

theorem around_observe {error : String} {d : Decision}
    (h : Around key m (.memory (.observe key.text error)) d n) :
    ∃ entry, (entry = m.entry key ∨ entry = none) ∧ m.time ≤ n.time ∧
      d = (Limiter.step entry error n.time).2 ∧
      n.entry key = some (Limiter.step entry error n.time).1 ∧
      n.failures key = m.failures key := by
  obtain ⟨u, hu, hdecision, rfl⟩ := around_memory h
  refine ⟨u.entry key, hu.entry, hu.time, ?_, ?_, hu.failures⟩
  · have hanswer : d = (u.memory.limiter.observe key.text error u.time).1 := hdecision
    rw [hanswer, Limiter.observe_eq]
    rfl
  · exact (Limiter.get?_observe ..).trans (if_pos rfl)

theorem around_countRetry {count : Nat}
    (h : Around key m (.memory (.countRetry key)) count n) :
    count = m.failures key + 1 ∧ n.failures key = m.failures key + 1 ∧
      m.time ≤ n.time ∧
      (n.entry key = m.entry key ∨ n.entry key = none) := by
  obtain ⟨u, hu, hcount, rfl⟩ := around_memory h
  have hmore : (u.memory.retries.increment key).get key = m.failures key + 1 := by
    rw [RetryCounts.get_increment, if_pos rfl]
    exact congrArg (· + 1) hu.failures
  exact ⟨hcount.trans hmore, hmore, hu.time, hu.entry⟩

theorem around_remaining {left : Option Nat}
    (h : Around key m (.memory (.remaining key.text)) left n) :
    left = n.window key ∧ Kept key m n := by
  obtain ⟨u, hu, hleft, rfl⟩ := around_memory h
  exact ⟨hleft, hu⟩

/-- No failure of the Service is known. -/
structure Fresh (key : ServiceKey) (m : Moment) : Prop where
  entry : m.entry key = none
  failures : m.failures key = 0

theorem Fresh.kept (h : Fresh key m) (hkept : Kept key m n) : Fresh key n :=
  ⟨hkept.entry_eq_none h.entry, hkept.failures.trans h.failures⟩

def Blameless : Request → Prop
  | .memory (.observe _ _) | .memory (.countRetry _) => False
  | _ => True

theorem Blameless.fresh (hr : Blameless r) (hm : Fresh key m)
    (h : Around key m r reply n) : Fresh key n := by
  by_cases helsewhere : Elsewhere key r
  · exact hm.kept (helsewhere.kept h)
  cases r with
  | memory call =>
      obtain ⟨u, hu, -, rfl⟩ := around_memory h
      have hfresh := hm.kept hu
      cases call with
      | observe _ _ | countRetry _ => exact hr.elim
      | claim _ _ | retain _ _ | release _ _ | releaseAll _ | remaining _ =>
          exact absurd trivial helsewhere
      | forget subject =>
          obtain rfl : subject = key.text := not_ne_iff.mp helsewhere
          exact ⟨(Table.get?_erase ..).trans (if_pos rfl), hfresh.failures⟩
      | resetRetries other =>
          obtain rfl : other = key := not_ne_iff.mp helsewhere
          exact ⟨hfresh.entry, (RetryCounts.get_reset ..).trans (if_pos rfl)⟩
  | router _ | store _ | publish _ _ | cancelled | now | lock _ | unlock _ =>
      exact absurd trivial helsewhere

/-! ## Stages of a pass -/

def decision? : Exchange → Option (String × String × Decision)
  | ⟨.memory (.observe subject error), d⟩ => some (subject, error, d)
  | _ => none

def decisions (log : List Exchange) : List (String × String × Decision) :=
  log.filterMap decision?

variable {settings : CleanupSettings} {defaults : RuleDefaults}
  {service : ServiceObject} {view : ServiceView} {failure : PassFailure}
  {action : Action} {x y : Moment × List Exchange}

theorem misses_blameless : Misses decision? Blameless := by
  intro r reply hr
  cases r with
  | memory call =>
      cases call with
      | observe _ _ => exact hr.elim
      | _ => rfl
  | router _ | store _ | publish _ _ | cancelled | now | lock _ | unlock _ => rfl

def Aloof : Request → Prop
  | .memory (.observe _ _) | .memory (.forget _) | .memory (.countRetry _)
  | .memory (.resetRetries _) => False
  | _ => True

theorem Aloof.elsewhere (h : Aloof r) : Elsewhere key r := by
  cases r with
  | memory call =>
      cases call with
      | observe _ _ | forget _ | countRetry _ | resetRetries _ => exact h.elim
      | claim _ _ | retain _ _ | release _ _ | releaseAll _ | remaining _ => trivial
  | router _ | store _ | publish _ _ | cancelled | now | lock _ | unlock _ => trivial

theorem Aloof.blameless (h : Aloof r) : Blameless r := by
  cases r with
  | memory call =>
      cases call with
      | observe _ _ | forget _ | countRetry _ | resetRetries _ => exact h.elim
      | claim _ _ | retain _ _ | release _ _ | releaseAll _ | remaining _ => trivial
  | router _ | store _ | publish _ _ | cancelled | now | lock _ | unlock _ => trivial

theorem aloof_of_preparing (h : Preparing r) : Aloof r := by
  cases r with
  | memory call =>
      cases call with
      | claim _ _ | retain _ _ | release _ _ => trivial
      | observe _ _ | forget _ | countRetry _ | resetRetries _
      | releaseAll _ | remaining _ =>
          exact h.elim
  | router _ | cancelled | lock _ | unlock _ => trivial
  | store _ | publish _ _ | now => exact h.elim

theorem blameless_of_aside (h : Aside r) : Blameless r := by
  cases r with
  | memory call =>
      cases call with
      | observe _ _ | countRetry _ => exact h.elim
      | claim _ _ | retain _ _ | release _ _ | releaseAll _ | remaining _ | forget _
      | resetRetries _ => trivial
  | router _ | store _ | publish _ _ | cancelled | now | lock _ | unlock _ => trivial

/-- Nothing is decided, and the failures are as they were. -/
structure Unmoved (key : ServiceKey) (x y : Moment × List Exchange) : Prop where
  kept : Kept key x.1 y.1
  decisions : decisions y.2 = decisions x.2

theorem unmoved_of_way (h : Way (Recorded (Around key)) Aloof x y) :
    Unmoved key x y := by
  refine ⟨?_, h.unseen fun r reply hr => misses_blameless r reply hr.blameless⟩
  refine h.preserves (P := fun z => Kept key x.1 z.1) ?_ (.refl key x.1)
  intro u r reply v hr hu hmay
  exact hu.trans (hr.elsewhere.kept hmay.1)

theorem time_le_of_leads {α : Type} {script : Script α} {a : α}
    (h : Leads (Recorded (Around key)) script x a y) : x.1.time ≤ y.1.time := by
  refine h.preserves (P := fun z => x.1.time ≤ z.1.time) ?_ (Nat.le_refl _)
  intro u r reply v hu hmay
  exact Nat.le_trans hu (time_le_of_around hmay.1)

theorem fresh_of_forget (h : Leads (Recorded (Around key)) (forget key) x () y) :
    Fresh key y.1 := by
  obtain ⟨_, z, hforget, hreset⟩ := leads_bind.mp h
  obtain ⟨u, -, -, hz⟩ := around_memory (leads_memory.mp hforget).1
  obtain ⟨v, hv, -, hy⟩ := around_memory (leads_memory.mp hreset).1
  have hentry : z.1.entry key = none := by
    rw [hz]
    exact (Table.get?_erase ..).trans (if_pos rfl)
  rw [hy]
  exact ⟨hv.entry_eq_none hentry, (RetryCounts.get_reset ..).trans (if_pos rfl)⟩

theorem fresh_of_way (h : Way (Recorded (Around key)) Blameless x y)
    (hx : Fresh key x.1) : Fresh key y.1 := by
  refine h.preserves (P := fun z => Fresh key z.1) ?_ hx
  intro u r reply v hr hu hmay
  exact hr.fresh hu hmay.1

theorem blameless_afterwards {plan : List Operation}
    {result : Except StoreError Unit} {u v w : Moment × List Exchange}
    (hannounce : Leads (Recorded (Around key)) (announce view plan) u () v)
    (hannotate : Leads (Recorded (Around key)) (Mark.annotate view.key
      (successMarks view)).run v result w) :
    Way (Recorded (Around key)) Blameless u w :=
  (hannounce.way (asks_announce plan fun _ => trivial)).trans
    (hannotate.way (Mark.asks_annotate _ trivial))

/-- **After a success no failure is known.** -/
theorem fresh_of_success
    (h : Leads (Recorded (Around view.key)) (converge defaults view).run x
    (.ok ()) y) : Fresh view.key y.1 := by
  obtain ⟨desired, s₁, s₂, -, -, hlocked, hunlock⟩ := converge_succeeds h
  obtain ⟨plan, u₁, u₂, u₃, u₄, u₅, -, -, -, hforget, hannounce, hannotate⟩ :=
    convergeLocked_ok hlocked
  exact fresh_of_way ((blameless_afterwards hannounce hannotate).trans
    (hunlock.mono fun _ => blameless_of_aside)) (fresh_of_forget hforget)

def forgets : PassFailure → Bool
  | .store _ => true
  | _ => false

/-- **A pass fails** with the failures before it known as ever, or with none known
at all. -/
theorem converge_unmoved (hkey : view.key = key)
    (h : Leads (Recorded (Around key)) (converge defaults view).run x
      (.error failure) y) :
    decisions y.2 = decisions x.2 ∧ (forgets failure = false → Kept key x.1 y.1) ∧
      (forgets failure = true → Fresh key y.1) := by
  subst hkey
  rcases converge_halts h with
    ⟨hcause, hway⟩ | ⟨e, plan, s₁, s₂, s₃, s₄, rfl, hway, hforget, hannounce,
      hannotate, hunlock⟩
  · obtain ⟨hkept, hdecisions⟩ := unmoved_of_way (hway.mono fun _ => aloof_of_preparing)
    refine ⟨hdecisions, fun _ => hkept, fun hforgets => ?_⟩
    cases failure with
    | store e => exact absurd rfl (hcause e)
    | view _ | desired _ | router _ | execution _ | cleanup _ =>
        exact absurd hforgets (by simp [forgets])
  · have hpreparing : ∀ {u v}, Way (Recorded (Around view.key)) Preparing u v →
        Way (Recorded (Around view.key)) Blameless u v :=
      fun hway => hway.mono fun _ hr => (aloof_of_preparing hr).blameless
    have hafter := (blameless_afterwards hannounce hannotate).trans (hpreparing hunlock)
    have hforgetting : Way (Recorded (Around view.key)) Blameless s₁ s₂ :=
      hforget.way (asks_forget view.key trivial trivial)
    refine ⟨?_, fun hforgets => absurd hforgets (by simp [forgets]),
      fun _ => fresh_of_way hafter (fresh_of_forget hforget)⟩
    exact ((hpreparing hway).trans (hforgetting.trans hafter)).unseen misses_blameless

/-- **The failure is observed** once, and what is done about it then is nothing to
the memory. -/
theorem recordFailure_observed (hkey : view.key = key)
    (h : Leads (Recorded (Around key)) (recordFailure view failure) x () y) :
    ∃ entry time, (entry = x.1.entry key ∨ entry = none) ∧ x.1.time ≤ time ∧
      time ≤ y.1.time ∧
      decisions y.2 = decisions x.2 ++
        [(key.text, failure.message, (Limiter.step entry failure.message time).2)] ∧
      (y.1.entry key = some (Limiter.step entry failure.message time).1 ∨
        y.1.entry key = none) ∧
      y.1.failures key = x.1.failures key := by
  subst hkey
  obtain ⟨d, z, hobserve, hrest⟩ := recordFailure_cases h
  obtain ⟨entry, hentry, htime, rfl, hafter, hfailures⟩ := around_observe hobserve.1
  have hdecided : decisions z.2 = decisions x.2 ++
      [(view.key.text, failure.message,
          (Limiter.step entry failure.message z.1.time).2)] :=
    picked_of_may hobserve
  obtain ⟨hkept, hdecisions⟩ : Unmoved view.key z y := by
    rcases hrest with ⟨-, -, rfl⟩ | ⟨-, hpublish⟩ |
      ⟨-, -, u, time, v, reply, hpublish, hnow, hpatch⟩
    · exact ⟨.refl _ _, rfl⟩
    · exact unmoved_of_way (.of_may (show Aloof (.publish _ _) from trivial) hpublish)
    · have htold : Way (Recorded (Around view.key)) Aloof z u :=
        .of_may (show Aloof (.publish _ _) from trivial) hpublish
      have hdated : Way (Recorded (Around view.key)) Aloof u v :=
        .of_may (show Aloof .now from trivial) hnow
      exact unmoved_of_way ((htold.trans hdated).trans
        (.of_may (show Aloof (.store _) from trivial) hpatch))
  exact ⟨entry, z.1.time, hentry, htime, hkept.time, hdecisions.trans hdecided,
    hkept.entry_or_none (Or.inl hafter), hkept.failures.trans hfailures⟩

/-- **What the retry is told**: one more failure is counted, and the limiter
is asked. -/
theorem afterFailure_answers (hkey : service.key = key)
    (h : Leads (Around key) (Reconcile.afterFailure service failure) m action n) :
    action = Backoff.action (m.failures key + 1) failure.kind (n.window key) ∧
      n.failures key = m.failures key + 1 ∧ m.time ≤ n.time ∧
      (n.entry key = m.entry key ∨ n.entry key = none) := by
  subst hkey
  obtain ⟨count, u, hcount, hrest⟩ := leads_bind.mp h
  obtain ⟨left, v, hremaining, hdone⟩ := leads_bind.mp hrest
  obtain ⟨rfl, rfl⟩ := leads_done.mp hdone
  obtain ⟨rfl, hfailures, htime, hentry⟩ := around_countRetry (leads_memory.mp hcount)
  obtain ⟨rfl, hkept⟩ := around_remaining (leads_memory.mp hremaining)
  exact ⟨rfl, hkept.failures.trans hfailures, Nat.le_trans htime hkept.time,
    hkept.entry_or_none hentry⟩

end PortForwarding.Cadence
