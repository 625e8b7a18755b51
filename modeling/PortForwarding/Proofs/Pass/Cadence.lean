import PortForwarding.Proofs.Pass.Moments

/-!
# How a failing Service is tried again

Two clocks say when a pass that has failed is tried again. The one counts the
failures in a row, and doubles the delay with each; the other is the limiter,
which keeps a failure to itself for a while after it has been reported. A pass
that waits for both is never held back (`retries_paced`): the limiter has nothing
left to wait for when the pass comes, whatever it says by then.

Both clocks are set back as soon as the plan of a pass has been carried out, and
that is too early. If the Service cannot be written on after that, the pass fails
all the same, and its failure is the first one again: it is tried again for ever,
as if nothing had failed before (`retries_endless`).
-/

namespace PortForwarding.Cadence

open Reconcile Script

variable {settings : CleanupSettings} {defaults : RuleDefaults} {key : ServiceKey}
  {m n : Moment}

/-! ## One failure after another -/

/-- A pass that fails for a Service that asks for ports, and what its retry
is told. -/
structure Turn (settings : CleanupSettings) (defaults : RuleDefaults)
    (key : ServiceKey) where
  service : ServiceObject
  view : ServiceView
  /-- The pass begins. -/
  first : Moment
  /-- The pass has failed. -/
  halted : Moment
  /-- The retry has been told. -/
  last : Moment
  failure : PassFailure
  action : Action
  log : List Exchange
  seen : ServiceView.of? service = .ok view
  sameKey : view.key = key
  living : view.deleting = false
  qualifies : view.qualifies = true
  held : view.hasFinalizer = true
  fails : Leads (Recorded (Around key)) (pass settings defaults service).run (first, [])
    (.error failure) (halted, log)
  transient : failure.kind = .transient
  retries : Leads (Around key) (Reconcile.afterFailure service failure) halted action last

namespace Turn

def forgets (p : Turn settings defaults key) : Bool :=
  Cadence.forgets p.failure

def Surfaced (p : Turn settings defaults key) : Prop :=
  ∃ d, decisions p.log = [(key.text, p.failure.message, d)] ∧ d.surface = true

/-- How long the limiter keeps the failure to itself when the retry is told. -/
def window (p : Turn settings defaults key) : Nat :=
  (p.last.window key).getD 0

end Turn

variable {p : Turn settings defaults key} {ps : List (Turn settings defaults key)}
  {e : FailureEntry} {after : Nat}

/-- **The number of the attempt** that is the last of these passes: they are
counted from the latest one on that has forgotten its Service. -/
def attempts (ps : List (Turn settings defaults key)) : Nat :=
  ps.foldl (fun n p => (if p.forgets then 0 else n) + 1) 0

/-- The pass comes no earlier than the retry of the one before it was told. -/
def Due (ps : List (Turn settings defaults key))
    (p : Turn settings defaults key) : Prop :=
  ∀ q ∈ ps.getLast?, ∀ after, q.action = .requeue after →
    q.last.time + after ≤ p.first.time

def Scheduled (ps : List (Turn settings defaults key)) : Prop :=
  ∀ q ∈ ps.getLast?, q.action ≠ .awaitChange

/-- **Passes of one Service that fail, one after another**, since the operator was
started or a pass has succeeded. Between them the Service may be edited. -/
inductive Course (settings : CleanupSettings) (defaults : RuleDefaults)
    (key : ServiceKey) :
    List (Turn settings defaults key) → Moment → Prop
  | begun (time : Nat) : Course settings defaults key [] ⟨.empty, time⟩
  | succeeded {service : ServiceObject} {view : ServiceView} {first last : Moment}
      {log : List Exchange} {action : Action} (hview : ServiceView.of? service = .ok view)
      (hkey : view.key = key) (hliving : view.deleting = false)
      (hqualifies : view.qualifies = true) (hfinalizer : view.hasFinalizer = true)
      (h : Leads (Recorded (Around key)) (pass settings defaults service).run (first, [])
        (.ok action) (last, log)) : Course settings defaults key [] last
  | waited {ps : List (Turn settings defaults key)} {m n : Moment}
      (earlier : Course settings defaults key ps m) (h : Meanwhile key m n) :
      Course settings defaults key ps n
  | failed {ps : List (Turn settings defaults key)} (p : Turn settings defaults key)
      (earlier : Course settings defaults key ps p.first) (hdue : Due ps p) :
      Course settings defaults key (ps ++ [p]) p.last

theorem attempts_snoc (ps : List (Turn settings defaults key))
    (p : Turn settings defaults key) :
    attempts (ps ++ [p]) = (if p.forgets then 0 else attempts ps) + 1 :=
  List.foldl_append ..

/-- Every pass counts, unless one after the first has forgotten its Service. -/
theorem attempts_eq_length_iff (ps : List (Turn settings defaults key)) :
    attempts ps = ps.length ↔ ∀ p ∈ ps.tail, p.forgets = false := by
  induction ps using List.reverseRecOn with
  | nil => simp [attempts]
  | append_singleton ps p ih =>
      rw [attempts_snoc, List.length_append, List.length_singleton]
      cases ps with
      | nil => cases hp : p.forgets <;> simp [attempts]
      | cons q ps =>
          have htail : (q :: ps ++ [p]).tail = (q :: ps).tail ++ [p] := rfl
          rw [htail, List.forall_mem_append, List.forall_mem_singleton, ← ih]
          -- there is a pass before this one, so that counting anew leaves it out
          cases hp : p.forgets <;> simp

/-- **What comes of a turn**: its failure is observed at some time, with what the
limiter knows of the Service by then, and counted. -/
structure Outcome (p : Turn settings defaults key) (entry : Option FailureEntry)
    (time : Nat) :
    Prop where
  known : entry = none ∨ p.forgets = false ∧ entry = p.first.entry key
  begun : p.first.time ≤ time
  told : time ≤ p.last.time
  decided : decisions p.log =
    [(key.text, p.failure.message, (Limiter.step entry p.failure.message time).2)]
  observed : ∀ e, p.last.entry key = some e →
    e = (Limiter.step entry p.failure.message time).1
  counted : p.last.failures key = (if p.forgets then 0 else p.first.failures key) + 1
  answered :
    p.action = Backoff.action (p.last.failures key) .transient (p.last.window key)

theorem Turn.outcome (p : Turn settings defaults key) :
    ∃ entry time, Outcome p entry time := by
  have hservice : p.service.key = key :=
    (ServiceView.of?_ok p.seen).1.symm.trans p.sameKey
  have hfails := p.fails
  rw [pass_eq_managed p.seen p.living p.qualifies p.held] at hfails
  rcases managed_cases hfails with ⟨heq, -⟩ | ⟨failure, x, heq, hconverge, hrecord⟩
  · exact absurd heq (by simp)
  obtain rfl : p.failure = failure := Except.error.inj heq
  obtain ⟨hundecided, hkept, hfresh⟩ := converge_unmoved p.sameKey hconverge
  obtain ⟨entry, time, hentry, hearlier, hlater, hdecided, hafter, hfailures⟩ :=
    recordFailure_observed p.sameKey hrecord
  obtain ⟨haction, hcount, htold, hstill⟩ := afterFailure_answers hservice p.retries
  refine ⟨entry, time, ?_⟩
  constructor
  case known =>
    -- nothing is known where the Service has been forgotten, or where the entry
    -- was lost meanwhile
    rcases hentry with hsame | hnone
    · cases hforgets : p.forgets with
      | true => exact Or.inl (hsame.trans (hfresh hforgets).entry)
      | false =>
          rcases (hkept hforgets).entry with hunchanged | hlost
          · exact Or.inr ⟨rfl, hsame.trans hunchanged⟩
          · exact Or.inl (hsame.trans hlost)
    · exact Or.inl hnone
  case begun => exact Nat.le_trans (time_le_of_leads hconverge) hearlier
  case told => exact Nat.le_trans hlater htold
  case decided => exact hdecided.trans (congrArg (· ++ _) hundecided)
  case observed =>
    intro e he
    rcases hstill with hsame | hnone
    · rcases hafter with hsome | hlost
      · exact Option.some.inj ((hsame.symm.trans he).symm.trans hsome)
      · exact absurd (hlost.symm.trans (hsame.symm.trans he)) (by simp)
    · exact absurd (hnone.symm.trans he) (by simp)
  case counted =>
    rw [hcount, hfailures]
    cases hforgets : p.forgets with
    | true => simp [(hfresh hforgets).failures]
    | false => simp [(hkept hforgets).failures]
  case answered => rw [hcount, haction, p.transient]

/-! ## What is known in between -/

theorem window_of_entry (he : m.entry key = some e) :
    (m.window key).getD 0 = Limiter.remaining e m.time := by
  have hentry : m.memory.limiter.entries.get? key.text = some e := he
  unfold Moment.window Limiter.remaining?
  rw [hentry, Option.map_some, Option.filter_some]
  generalize Limiter.remaining e m.time = left
  by_cases hleft : left = 0
  · simp [hleft]
  · simp [hleft]

theorem window_le_hour (m : Moment) (key : ServiceKey) :
    (m.window key).getD 0 ≤ Limiter.seconds 3600 := by
  cases he : m.entry key with
  | none =>
      have hentry : m.memory.limiter.entries.get? key.text = none := he
      unfold Moment.window Limiter.remaining?
      rw [hentry]
      exact Nat.zero_le _
  | some e =>
      rw [window_of_entry he]
      exact Nat.le_trans (Nat.sub_le ..) (Limiter.wait_le_hour e.rung)

/-- Whoever waits for as long as the limiter says has nothing left to wait for. -/
theorem spent_after (he : m.entry key = some e) (hsurfaced : e.lastSurfaced ≤ m.time)
    (hafter : (m.window key).getD 0 ≤ after) : Limiter.Spent (m.time + after) e := by
  rw [window_of_entry he] at hafter
  intro time htime
  unfold Limiter.remaining at hafter ⊢
  omega

/-- **What is known after a number of failed passes.** -/
structure Known (ps : List (Turn settings defaults key)) (m : Moment) : Prop where
  failures : m.failures key = attempts ps
  reported : ∀ e, m.entry key = some e → e.lastSurfaced ≤ m.time
  /-- The limiter has nothing left to wait for when the retry is due. -/
  spent : ∀ e, m.entry key = some e →
    ∃ q ∈ ps.getLast?, ∀ after, q.action = .requeue after →
    Limiter.Spent (q.last.time + after) e

theorem Fresh.known (h : Fresh key m) :
    Known ([] : List (Turn settings defaults key)) m := by
  have hnone : ∀ e, m.entry key ≠ some e := by
    intro e
    rw [h.entry]
    simp
  exact ⟨h.failures, fun e he => absurd he (hnone e), fun e he => absurd he (hnone e)⟩

theorem Known.kept (h : Known ps m) (hkept : Kept key m n) : Known ps n := by
  have hentry : ∀ e, n.entry key = some e → m.entry key = some e := by
    intro e he
    rcases hkept.entry with hsame | hnone
    · exact hsame.symm.trans he
    · exact absurd (hnone.symm.trans he) (by simp)
  exact ⟨hkept.failures.trans h.failures,
    fun e he => Nat.le_trans (h.reported e (hentry e he)) hkept.time,
    fun e he => h.spent e (hentry e he)⟩

theorem Known.reported_before {entry : Option FailureEntry} {time : Nat}
    (h : Known ps p.first) (hp : Outcome p entry time) :
    (Limiter.step entry p.failure.message time).1.lastSurfaced ≤ time := by
  obtain ⟨-, hnow | ⟨e, rfl, hsame⟩⟩ := Limiter.step_dates entry p.failure.message time
  · exact Nat.le_of_eq hnow
  · rcases hp.known with hnone | ⟨-, hsome⟩
    · exact absurd hnone (by simp)
    · rw [hsame]
      exact Nat.le_trans (h.reported e hsome.symm) hp.begun

theorem Turn.requeued (p : Turn settings defaults key)
    (h : p.action = .requeue after) :
    ∃ d, Backoff.delay (p.last.failures key) .transient = some d ∧
      d ≤ Backoff.maxDelay ∧
      after = Limiter.seconds (max d (Backoff.ceilSeconds p.window)) := by
  obtain ⟨entry, time, hp⟩ := p.outcome
  rw [hp.answered] at h
  exact Backoff.action_eq_requeue h

/-- **One more failed pass.** -/
theorem Known.failed (h : Known ps p.first) : Known (ps ++ [p]) p.last := by
  obtain ⟨entry, time, hp⟩ := p.outcome
  have hreported : ∀ e, p.last.entry key = some e → e.lastSurfaced ≤ p.last.time := by
    intro e he
    rw [hp.observed e he]
    exact Nat.le_trans (h.reported_before hp) hp.told
  refine ⟨?_, hreported, fun e he => ⟨p, by simp, fun after haction => ?_⟩⟩
  · rw [hp.counted, attempts_snoc, h.failures]
  · obtain ⟨d, -, -, rfl⟩ := p.requeued haction
    exact spent_after he (hreported e he)
      (Backoff.ceilSeconds_le_iff.mp (Nat.le_max_right ..))

theorem Course.known (h : Course settings defaults key ps m) : Known ps m := by
  -- along the course, from one moment at which something is known to the next
  induction h with
  | begun time => exact Fresh.known ⟨rfl, rfl⟩
  | succeeded hview hkey hliving hqualifies hfinalizer h =>
      rw [pass_eq_managed hview hliving hqualifies hfinalizer] at h
      rcases managed_cases h with ⟨-, hconverge⟩ | ⟨failure, x, heq, -, -⟩
      · subst hkey
        exact (fresh_of_success hconverge).known
      · exact absurd heq (by simp)
  | waited earlier h ih => exact ih.kept h.kept
  | failed p earlier hdue ih => exact ih.failed

/-! ## What the retries come to -/

/-- **How a failed pass is tried again** after these ones. -/
structure Paced (ps : List (Turn settings defaults key))
    (p : Turn settings defaults key) :
    Prop where
  /-- The failure of a retry is not held back. -/
  surfaced : Scheduled ps → p.Surfaced
  /-- Every failure since the last success counts, unless one after the first came
  after the Service had been forgotten. -/
  counted : attempts (ps ++ [p]) = ps.length + 1 ↔
    ∀ q ∈ (ps ++ [p]).tail, q.forgets = false
  /-- After ten attempts the operator waits for a change, and not before. -/
  ends : p.action = .awaitChange ↔ Backoff.maxAttempts ≤ attempts (ps ++ [p])
  /-- Else it waits for the least number of whole seconds that is enough for the
  delay of the attempt and for the limiter. -/
  waits : ∀ after, p.action = .requeue after → ∃ delay n,
    Backoff.delay (attempts (ps ++ [p])) .transient = some delay ∧
      after = Limiter.seconds n ∧
      n ≤ 3600 ∧ ∀ m, n ≤ m ↔ delay ≤ m ∧ p.window ≤ Limiter.seconds m
  /-- No earlier attempt has a longer delay. -/
  grows : ∀ earlier ≤ attempts (ps ++ [p]), ∀ a b,
    Backoff.delay earlier .transient = some a →
    Backoff.delay (attempts (ps ++ [p])) .transient = some b → a ≤ b

theorem Known.surfaced (h : Known ps p.first) (hdue : Due ps p)
    (hscheduled : Scheduled ps) : p.Surfaced := by
  obtain ⟨entry, time, hp⟩ := p.outcome
  have hspent : ∀ e, entry = some e → Limiter.Spent p.first.time e := by
    rintro e rfl
    rcases hp.known with hnone | ⟨-, hsome⟩
    · exact absurd hnone (by simp)
    -- the entry was there when the retry before was told, and the pass has waited
    -- for it since
    obtain ⟨q, hq, hspent⟩ := h.spent e hsome.symm
    cases haction : q.action with
    | awaitChange => exact absurd haction (hscheduled q hq)
    | requeue after =>
        intro t ht
        exact hspent after haction t (Nat.le_trans (hdue q hq after haction) ht)
  exact ⟨_, hp.decided, Limiter.surface_of_spent hspent hp.begun _⟩

/-- **Retries are never held back**, and wait for both clocks. -/
theorem retries_paced (h : Course settings defaults key ps p.first)
    (hdue : Due ps p) : Paced ps p := by
  have hknown := h.known
  have hfailures : p.last.failures key = attempts (ps ++ [p]) := hknown.failed.failures
  constructor
  case surfaced => exact hknown.surfaced hdue
  case counted =>
    have hlength : (ps ++ [p]).length = ps.length + 1 := List.length_append
    rw [← hlength]
    exact attempts_eq_length_iff _
  case ends =>
    obtain ⟨entry, time, hp⟩ := p.outcome
    rw [hp.answered, hfailures]
    exact Backoff.action_eq_awaitChange
  case waits =>
    intro after haction
    obtain ⟨d, hdelay, hhour, rfl⟩ := p.requeued haction
    rw [hfailures] at hdelay
    refine ⟨d, _, hdelay, rfl, Nat.max_le.mpr ⟨hhour, ?_⟩, fun m => ?_⟩
    · exact Backoff.ceilSeconds_le_iff.mpr (window_le_hour p.last key)
    · rw [Nat.max_le, Backoff.ceilSeconds_le_iff]
  case grows =>
    intro earlier hearlier a b ha hb
    exact Backoff.delay_le_delay hearlier ha hb

end PortForwarding.Cadence

/-! ## A router that is down, and an API that refuses every change -/

namespace PortForwarding.Sample

open Cadence Reconcile Script

def clockwork (router : (call : RouterCall) → call.Reply)
    (store : (call : StoreCall) → call.Reply) : Surroundings Moment
  | .memory call, m =>
    ((call.answer m.time m.memory).1, ⟨(call.answer m.time m.memory).2, m.time⟩)
  | .router call, m => (router call, m)
  | .store call, m => (store call, m)
  | .cancelled, m => (false, m)
  | .now, m => (epoch, m)
  | .publish _ _, m | .lock _, m | .unlock _, m => ((), m)

section

variable (router : (call : RouterCall) → call.Reply)
  (store : (call : StoreCall) → call.Reply)

theorem clockwork_may (r : Request) (m : Moment) :
    Around key m r (clockwork router store r m).1 (clockwork router store r m).2 := by
  refine ⟨m, .idle, ?_⟩
  cases r with
  | memory call => exact ⟨rfl, rfl⟩
  | router _ | store _ | publish _ _ | cancelled | now | lock _ | unlock _ => exact rfl

def tried (m : Moment) : Except PassFailure Action × Moment × List Exchange :=
  run (recording (clockwork router store)) (pass {} {} service).run (m, [])

theorem leads_tried (m : Moment) :
    Leads (Recorded (Around key)) (pass {} {} service).run (m, [])
      (tried router store m).1 (tried router store m).2 :=
  leads_run (recording_may (clockwork_may router store)) _ _

def told (failure : PassFailure) (m : Moment) : Action × Moment :=
  run (clockwork router store) (afterFailure service failure) (tried router store m).2.1

theorem service_seen : ServiceView.of? service = .ok view := by
  decide +kernel

def turn (m : Moment) (failure : PassFailure) (htransient : failure.kind = .transient)
    (hfails : (tried router store m).1 = .error failure) : Turn {} {} key where
  service := service
  view := view
  first := m
  halted := (tried router store m).2.1
  last := (told router store failure m).2
  failure := failure
  action := (told router store failure m).1
  log := (tried router store m).2.2
  seen := service_seen
  sameKey := rfl
  living := rfl
  qualifies := by decide
  held := rfl
  fails := by
    rw [← hfails]
    exact leads_tried router store m
  transient := htransient
  retries := leads_run (clockwork_may router store) _ _

end

def ready : (call : RouterCall) → call.Reply
  | .list => .ok [⟨"r1", (wish "http" 80 80).spec⟩]
  | .add spec | .update _ spec => .ok ⟨"r2", spec⟩
  | .remove _ => .ok ()
  | .ready => .ok true

def obliging : (call : StoreCall) → call.Reply
  | .list => .ok [service]
  | .get _ => .ok service
  | .patch _ _ => .ok ()

def unwilling : (call : StoreCall) → call.Reply :=
  StoreCall.failure (.refused 500 "")

def settled : Moment :=
  (tried ready obliging ⟨.empty, 0⟩).2.1

theorem settled_course : Course {} {} key [] settled := by
  have hsuccess : (tried ready obliging ⟨.empty, 0⟩).1 = .ok .awaitChange := by
    decide +kernel
  have hleads := leads_tried ready obliging ⟨.empty, 0⟩
  rw [hsuccess] at hleads
  exact .succeeded service_seen rfl rfl (by decide) rfl hleads

def minutesIn (n : Nat) (m : Moment) : Moment :=
  { m with time := Limiter.seconds (60 * n) }

def vexation : PassFailure :=
  .store (.refused 500 "")

def vexed : Nat → Moment
  | 0 => settled
  | n + 1 => minutesIn (n + 1) (told ready unwilling vexation (vexed n)).2

theorem vexed_fails :
    ∀ n < 10, (tried ready unwilling (vexed n)).1 = .error vexation ∧
      (told ready unwilling vexation (vexed n)).1 = .requeue (Limiter.seconds 60) ∧
      (told ready unwilling vexation (vexed n)).2.time =
        Limiter.seconds (60 * n) := by
  decide +kernel

def outage : PassFailure :=
  .router (.unreachable "down")

def laterOn : Moment :=
  minutesIn 1 (told Stored.refusal obliging outage settled).2

theorem outage_fails :
    (tried Stored.refusal obliging settled).1 = .error outage ∧
      (tried Stored.refusal obliging laterOn).1 = .error outage := by
  decide +kernel

def firstTurn : Turn {} {} key :=
  turn Stored.refusal obliging settled outage rfl outage_fails.1

def secondTurn : Turn {} {} key :=
  turn Stored.refusal obliging laterOn outage rfl outage_fails.2

theorem turns_answered : firstTurn.action = .requeue (Limiter.seconds 60) ∧
    firstTurn.last.time = 0 ∧ secondTurn.action = .requeue (Limiter.seconds 300) := by
  decide +kernel

theorem secondTurn_due : Due [firstTurn] secondTurn := by
  intro q hq after hafter
  obtain rfl : firstTurn = q := by simpa using hq
  obtain ⟨haction, htime, -⟩ := turns_answered
  obtain rfl := Action.requeue.inj (haction.symm.trans hafter)
  rw [htime]
  decide

theorem secondTurn_course : Course {} {} key [firstTurn] secondTurn.first := by
  have hfirst : Course {} {} key [firstTurn] firstTurn.last :=
    .failed firstTurn settled_course fun q hq => absurd hq (by simp)
  refine .waited hfirst (.waited .idle _ ?_)
  rw [turns_answered.2.1]
  exact Nat.zero_le _

theorem vexed_course {n : Nat} (h : n < 10) : ∃ ps : List (Turn {} {} key),
    Course {} {} key ps (vexed n) ∧ ps.length = n ∧
      ∀ q ∈ ps.getLast?, ∀ after, q.action = .requeue after →
        q.last.time + after ≤ (vexed n).time := by
  induction n with
  | zero => exact ⟨[], settled_course, rfl, fun q hq => absurd hq (by simp)⟩
  | succ n ih =>
      obtain ⟨ps, hcourse, hlength, hdue⟩ := ih (by omega)
      obtain ⟨hfails, haction, htime⟩ := vexed_fails n (by omega)
      let p := turn ready unwilling (vexed n) vexation rfl hfails
      have htold : p.last.time = Limiter.seconds (60 * n) := htime
      have hlater :
          Limiter.seconds (60 * n) + Limiter.seconds 60 =
              Limiter.seconds (60 * (n + 1)) := by
        unfold Limiter.seconds
        omega
      have hfailed : Course {} {} key (ps ++ [p]) p.last := .failed p hcourse hdue
      refine ⟨ps ++ [p], .waited hfailed (.waited .idle _ ?_), by simp [hlength], ?_⟩
      · rw [htold, ← hlater]
        exact Nat.le_add_right ..
      · intro q hq after hafter
        obtain rfl : p = q := by simpa using hq
        obtain rfl := Action.requeue.inj (haction.symm.trans hafter)
        rw [htold, hlater]
        exact Nat.le_refl _

end PortForwarding.Sample

namespace PortForwarding.Cadence

open Sample

theorem retries_paced_outage : Scheduled [firstTurn] ∧ secondTurn.Surfaced ∧
    secondTurn.action = .requeue (Limiter.seconds 300) ∧
    attempts ([firstTurn] ++ [secondTurn]) = 2 := by
  have hpaced := retries_paced secondTurn_course secondTurn_due
  have hscheduled : Scheduled [firstTurn] := by
    intro q hq
    obtain rfl : firstTurn = q := by simpa using hq
    rw [turns_answered.1]
    simp
  have hcounted : ∀ q ∈ ([firstTurn] ++ [secondTurn]).tail, q.forgets = false := by
    intro q hq
    obtain rfl : q = secondTurn := List.mem_singleton.mp hq
    rfl
  exact ⟨hscheduled, hpaced.surfaced hscheduled, turns_answered.2.2,
    hpaced.counted.mpr hcounted⟩

/-- **Ten failures in a row, and no end**: the API has refused to write on the
Service each time. -/
theorem retries_endless : ∃ (ps : List (Turn {} {} key)) (p : Turn {} {} key),
    Course {} {} key ps p.first ∧ Due ps p ∧ ps.length = 9 ∧
      p.action = .requeue (Limiter.seconds 60) := by
  obtain ⟨ps, hcourse, hlength, hdue⟩ := vexed_course (n := 9) (by decide)
  obtain ⟨hfails, haction, -⟩ := vexed_fails 9 (by decide)
  exact ⟨ps, turn ready unwilling (vexed 9) vexation rfl hfails, hcourse, hdue,
    hlength, haction⟩

end PortForwarding.Cadence
