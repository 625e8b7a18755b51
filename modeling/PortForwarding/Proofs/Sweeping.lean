import PortForwarding.Proofs.Limiter

/-!
# Sweeping goes unnoticed

A sweep takes the entries away that have not been seen for a while, while a
failure is held back for as long as the ladder says since it was reported. As long
as time does not run backwards, a failure has been reported no later than it was
seen (`Dated`), so that an entry which is idle for as long as the longest wait
keeps nothing back any more: whether it is there or not, its subject is answered
in the same way until it fails again (`Alike`).
-/

namespace PortForwarding.Limiter

/-! ## Histories -/

def act (l : Limiter) : Event → Limiter
  | .observed subject error time => (l.observe subject error time).2
  | .reset subject => l.reset subject
  | .swept time ttl => l.purge time ttl

def after (events : List Event) : Limiter :=
  events.foldl act .empty

def Event.time? : Event → Option Nat
  | .observed _ _ time | .swept time _ => some time
  | .reset _ => none

def Event.observation? (subject : String) : Event → Option Nat
  | .observed other _ time => if other = subject then some time else none
  | .reset _ | .swept _ _ => none

/-- **Time does not run backwards.** -/
def Ordered (events : List Event) : Prop :=
  (events.filterMap Event.time?).Pairwise (· ≤ ·)

/-- **When a failure of the subject was last observed.** -/
def latest? (subject : String) (events : List Event) : Option Nat :=
  (events.filterMap (Event.observation? subject)).getLast?

variable {subject error : String} {e : FailureEntry} {entry : Option FailureEntry}
  {event : Event} {events before later : List Event} {l l' : Limiter}
  {now ttl time last : Nat}

theorem after_snoc (events : List Event) (event : Event) :
    after (events ++ [event]) = (after events).act event :=
  List.foldl_append ..

theorem Event.time?_of_observation? (h : event.observation? subject = some time) :
    event.time? = some time := by
  cases event with
  | observed other error seen =>
      simp only [observation?] at h
      split at h
      · exact h
      · exact absurd h (by simp)
  | reset | swept => exact absurd h (by simp [observation?])

theorem Ordered.of_append (h : Ordered (before ++ later)) : Ordered before := by
  unfold Ordered at h
  rw [List.filterMap_append] at h
  exact (List.pairwise_append.mp h).1

theorem latest?_snoc (subject : String) (events : List Event) (event : Event) :
    latest? subject (events ++ [event]) =
      (event.observation? subject).or (latest? subject events) := by
  unfold latest?
  rw [List.filterMap_append]
  cases hseen : event.observation? subject <;> simp [hseen]

theorem Ordered.latest?_le (h : Ordered (before ++ event :: later))
    (htime : event.time? = some time) (hlast : latest? subject before = some last) :
    last ≤ time := by
  obtain ⟨earlier, hearlier, hseen⟩ := List.mem_filterMap.mp (List.mem_of_getLast? hlast)
  unfold Ordered at h
  rw [List.filterMap_append, List.filterMap_cons_some htime] at h
  exact (List.pairwise_append.mp h).2.2 last
    (List.mem_filterMap.mpr ⟨earlier, hearlier, Event.time?_of_observation? hseen⟩)
    time List.mem_cons_self

/-! ## What an entry says of the past -/

theorem get?_purge (l : Limiter) (now ttl : Nat) (subject : String) :
    (l.purge now ttl).entries.get? subject =
      (l.entries.get? subject).filter fun e => decide (now - e.lastSeen < ttl) :=
  Table.get?_filter l.entries _ subject

theorem get?_act (l : Limiter) (event : Event) (subject : String) :
    (l.act event).entries.get? subject =
      match event with
      | .observed other error time =>
        if other = subject then some (step (l.entries.get? subject) error time).1
        else l.entries.get? subject
      | .reset other => if other = subject then none else l.entries.get? subject
      | .swept time ttl =>
        (l.entries.get? subject).filter fun e => decide (time - e.lastSeen < ttl) := by
  cases event with
  | observed other error time => exact get?_observe l subject other error time
  | reset other => exact Table.get?_erase l.entries other subject
  | swept time ttl => exact get?_purge l time ttl subject

theorem again_due (h : remaining e now = 0) :
    again e now = ({ e with
        count := e.count + 1, lastSeen := now, lastSurfaced := now,
        surfacedCount := e.count + 1
        rung := min (e.rung + 1) topRung },
      ⟨true, none, e.count + 1, e.count + 1 - e.surfacedCount⟩) := by
  simp only [again, h, if_true]

theorem again_early (h : remaining e now ≠ 0) :
    again e now = ({ e with count := e.count + 1, lastSeen := now },
      ⟨false, some (remaining e now), e.count + 1, e.count + 1 - e.surfacedCount⟩) := by
  simp only [again, h, if_false]

theorem again_dates (e : FailureEntry) (now : Nat) :
    (again e now).1.lastSeen = now ∧
      ((again e now).1.lastSurfaced = now ∨ (again e now).1.lastSurfaced =
        e.lastSurfaced) := by
  by_cases hdue : remaining e now = 0
  · rw [again_due hdue]
    exact ⟨rfl, Or.inl rfl⟩
  · rw [again_early hdue]
    exact ⟨rfl, Or.inr rfl⟩

/-- An observation is seen when it is made, and reported then or not at all. -/
theorem step_dates (entry : Option FailureEntry) (error : String) (now : Nat) :
    (step entry error now).1.lastSeen = now ∧
      ((step entry error now).1.lastSurfaced = now ∨
        ∃ e, entry = some e ∧ (step entry error now).1.lastSurfaced =
          e.lastSurfaced) := by
  cases entry with
  | none => exact ⟨rfl, Or.inl rfl⟩
  | some e =>
      by_cases herror : e.error = error
      · rw [step_same herror]
        obtain ⟨hseen, hsurfaced⟩ := again_dates e now
        exact ⟨hseen, hsurfaced.imp_right fun hsame => ⟨e, rfl, hsame⟩⟩
      · rw [step_other herror]
        exact ⟨rfl, Or.inl rfl⟩

/-- The entry has been seen when the subject was last observed, and reported
no later. -/
structure Dated (subject : String) (events : List Event) (e : FailureEntry) :
    Prop where
  seen : latest? subject events = some e.lastSeen
  surfaced : e.lastSurfaced ≤ e.lastSeen

/-- **Every entry is dated**, if time does not run backwards. -/
theorem dated_after (hordered : Ordered events)
    (he : (after events).entries.get? subject = some e) : Dated subject events e := by
  induction events using List.reverseRecOn generalizing e with
  | nil => exact absurd he (by simp [after, empty])
  | append_singleton events event ih =>
      rw [after_snoc, get?_act] at he
      have hkept : (after events).entries.get? subject = some e →
          event.observation? subject = none → Dated subject (events ++ [event]) e := by
        intro he hunseen
        obtain ⟨hseen, hsurfaced⟩ := ih hordered.of_append he
        refine ⟨?_, hsurfaced⟩
        rw [latest?_snoc, hunseen, Option.none_or, hseen]
      cases event with
      | observed other error time =>
          dsimp only at he
          by_cases hother : other = subject
          · rw [if_pos hother] at he
            obtain rfl := Option.some.inj he
            obtain ⟨hseen, hsurfaced⟩ :=
              step_dates ((after events).entries.get? subject) error time
            refine ⟨?_, ?_⟩
            · rw [latest?_snoc, hseen]
              simp [Event.observation?, hother]
            · rw [hseen]
              rcases hsurfaced with hnow | ⟨e', he', hsame⟩
              · exact Nat.le_of_eq hnow
              · obtain ⟨hseen', hsurfaced'⟩ := ih hordered.of_append he'
                rw [hsame]
                exact Nat.le_trans hsurfaced' (hordered.latest?_le rfl hseen')
          · rw [if_neg hother] at he
            exact hkept he (if_neg hother)
      | reset other =>
          dsimp only at he
          by_cases hother : other = subject
          · rw [if_pos hother] at he
            exact absurd he (by simp)
          · rw [if_neg hother] at he
            exact hkept he rfl
      | swept time ttl => exact hkept (Option.filter_eq_some_iff.mp he).1 rfl

/-! ## What is idle -/

theorem wait_le_hour (rung : Nat) : wait rung ≤ seconds 3600 := by
  have hladder : ∀ n ∈ ladder, n ≤ 3600 := by decide
  refine seconds_le_seconds ?_
  rw [List.getD_eq_getElem?_getD]
  cases hrung : ladder[rung]? with
  | none => decide
  | some n => exact hladder n (List.mem_of_getElem? hrung)

/-- From now on the entry keeps nothing back. -/
def Spent (now : Nat) (e : FailureEntry) : Prop :=
  ∀ time, now ≤ time → remaining e time = 0

theorem Dated.spent (h : Dated subject events e)
    (hidle : e.lastSeen + seconds 3600 ≤ now) : Spent now e := by
  intro time htime
  have hwait := wait_le_hour e.rung
  have hsurfaced := h.surfaced
  unfold remaining
  omega

/-- **A sweep takes away what was last observed at least so long ago**, and
nothing else. -/
theorem get?_purge_iff (hordered : Ordered (before ++ .swept now ttl :: later)) :
    ((after before).purge now ttl).entries.get? subject = some e ↔
      (after before).entries.get? subject = some e ∧
        ∃ last, latest? subject before = some last ∧ now < last + ttl := by
  rw [get?_purge, Option.filter_eq_some_iff, decide_eq_true_eq]
  refine and_congr_right fun he => ?_
  have hseen := (dated_after hordered.of_append he).seen
  have hpast : e.lastSeen ≤ now := hordered.latest?_le rfl hseen
  rw [hseen]
  constructor
  · intro hrecent
    exact ⟨e.lastSeen, rfl, by omega⟩
  · rintro ⟨last, hlast, hrecent⟩
    obtain rfl := Option.some.inj hlast
    omega

/-! ## With and without a sweep -/

/-- The two limiters know the same of a subject, or the one has forgotten what the
other has only as an entry that keeps nothing back. -/
def Alike (subject : String) (now : Nat) (l l' : Limiter) : Prop :=
  l'.entries.get? subject = l.entries.get? subject ∨
    (l'.entries.get? subject = none ∧ ∀ e, l.entries.get? subject = some e → Spent now e)

theorem alike_purge (hordered : Ordered (before ++ .swept now ttl :: later))
    (httl : seconds 3600 ≤ ttl) (subject : String) :
    Alike subject now (after before) ((after before).purge now ttl) := by
  unfold Alike
  rw [get?_purge]
  cases he : (after before).entries.get? subject with
  | none => exact Or.inl rfl
  | some e =>
      by_cases hrecent : now - e.lastSeen < ttl
      · exact Or.inl (by simp [hrecent])
      · refine Or.inr ⟨Option.filter_eq_none_iff.mpr ?_, fun e' he' => ?_⟩
        · rintro e' he' hrecent'
          obtain rfl := Option.some.inj he'
          exact hrecent (of_decide_eq_true hrecent')
        obtain rfl := Option.some.inj he'
        have hhour : 0 < seconds 3600 := by decide
        exact (dated_after hordered.of_append he).spent (by omega)

theorem Alike.act (h : Alike subject now l l')
    (hunseen : event.observation? subject = none) :
    Alike subject now (l.act event) (l'.act event) := by
  unfold Alike
  rw [get?_act, get?_act]
  cases event with
  | observed other error time =>
      have hother : other ≠ subject := by
        rintro rfl
        simp [Event.observation?] at hunseen
      dsimp only
      rw [if_neg hother, if_neg hother]
      exact h
  | reset other =>
      dsimp only
      split
      · exact Or.inl rfl
      · exact h
  | swept time ttl =>
      rcases h with hsame | ⟨hnone, hspent⟩
      · exact Or.inl (by rw [hsame])
      · refine Or.inr ⟨by rw [hnone]; rfl, fun e he => ?_⟩
        exact hspent e (Option.filter_eq_some_iff.mp he).1

theorem Alike.foldl_act (h : Alike subject now l l')
    (hunseen : ∀ event ∈ later, event.observation? subject = none) :
    Alike subject now (later.foldl Limiter.act l) (later.foldl Limiter.act l') := by
  induction later generalizing l l' with
  | nil => exact h
  | cons event later ih =>
      exact ih (h.act (hunseen event List.mem_cons_self))
        fun event hevent => hunseen event (List.mem_cons_of_mem _ hevent)

theorem surface_of_spent (hspent : ∀ e, entry = some e → Spent now e)
    (htime : now ≤ time) (error : String) :
    (step entry error time).2.surface = true := by
  cases entry with
  | none => rfl
  | some e =>
      by_cases herror : e.error = error
      · rw [step_same herror]
        rw [again_due (hspent e rfl time htime)]
      · rw [step_other herror]

theorem Alike.surface (h : Alike subject now l l') (htime : now ≤ time)
    (error : String) :
    (l'.observe subject error time).1.surface =
      (l.observe subject error time).1.surface := by
  rw [observe_eq, observe_eq]
  dsimp only
  rcases h with hsame | ⟨hnone, hspent⟩
  · rw [hsame]
  · rw [hnone, surface_of_spent hspent htime]
    rfl

theorem Alike.remaining? (h : Alike subject now l l') (htime : now ≤ time) :
    l'.remaining? subject time = l.remaining? subject time := by
  unfold Limiter.remaining?
  rcases h with hsame | ⟨hnone, hspent⟩
  · rw [hsame]
  · rw [hnone]
    cases he : l.entries.get? subject with
    | none => rfl
    | some e =>
        rw [Option.map_some, hspent e he time htime]
        rfl

/-- **A sweep goes unnoticed.** It may come at any point of a history, and
whatever follows: until a subject fails again, it is told to wait for as long as
without the sweep, and its next failure is reported exactly if it is without the
sweep. What the sweep takes away are the entries that were last observed at least
`ttl` ago. -/
theorem sweep_unnoticed (hordered : Ordered (before ++ .swept now ttl :: later))
    (httl : seconds 3600 ≤ ttl) :
    (∀ subject e, ((after before).purge now ttl).entries.get? subject = some e ↔
      (after before).entries.get? subject = some e ∧
        ∃ last, latest? subject before = some last ∧ now < last + ttl) ∧
    ∀ subject error time, (∀ event ∈ later, event.observation? subject = none) →
      now ≤ time →
      ((after (before ++ .swept now ttl :: later)).observe subject error
        time).1.surface =
          ((after (before ++ later)).observe subject error time).1.surface ∧
        (after (before ++ .swept now ttl :: later)).remaining? subject time =
          (after (before ++ later)).remaining? subject time := by
  refine ⟨fun subject e => get?_purge_iff hordered, ?_⟩
  intro subject error time hunseen htime
  have halike : Alike subject now (after (before ++ later))
      (after (before ++ .swept now ttl :: later)) := by
    unfold after
    rw [List.foldl_append, List.foldl_append, List.foldl_cons]
    exact (alike_purge hordered httl subject).foldl_act hunseen
  exact ⟨halike.surface htime error, halike.remaining? htime⟩

/-- Of two subjects the one is swept away after an hour, and the other waits
as before. -/
theorem sweep_unnoticed_hourly :
    let before : List Event :=
      [.observed "a" "down" 0, .observed "b" "down" (seconds 3000),
      .observed "b" "down" (seconds 3570)]
    let later : List Event := [.observed "b" "down" (seconds 3610), .reset "c"]
    let swept := after (before ++ .swept (seconds 3600) (seconds 3600) :: later)
    Ordered (before ++ .swept (seconds 3600) (seconds 3600) :: later) ∧
      (after before).size = 2 ∧
        ((after before).purge (seconds 3600) (seconds 3600)).size = 1 ∧
      swept.remaining? "a" (seconds 3600) =
        (after (before ++ later)).remaining? "a" (seconds 3600) ∧
      (swept.observe "a" "down" (seconds 3620)).1.surface =
        ((after (before ++ later)).observe "a" "down" (seconds 3620)).1.surface := by
  intro before later swept
  have hordered : Ordered (before ++ .swept (seconds 3600) (seconds 3600) :: later) := by
    show List.Pairwise _ _
    decide +kernel
  obtain ⟨-, hsame⟩ := sweep_unnoticed hordered (Nat.le_refl _)
  have hunseen : ∀ event ∈ later, event.observation? "a" = none := by decide
  exact ⟨hordered, by decide +kernel, by decide +kernel,
    (hsame "a" "down" (seconds 3600) hunseen (Nat.le_refl _)).2,
    (hsame "a" "down" (seconds 3620) hunseen (by decide)).1⟩

end PortForwarding.Limiter
