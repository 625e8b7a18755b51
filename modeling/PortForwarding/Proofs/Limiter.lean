import Mathlib.Data.List.Induction
import Mathlib.Data.Option.Basic
import PortForwarding.Limiter

/-!
# The limiter against its reference

What a subject has been told of its failure is a plain list: when it was observed,
and what was decided. `reference` works the next decision out from that list
alone, by counting the reports and the observations since the latest one. The
limiter keeps no list, but four numbers and two points in time for each subject;
that they tell the same is `Tracks`, one step at a time.

Other subjects do not come into it: a subject is `watch`ed through everything that
happens to the limiter, and what has nothing to do with it can as well be left
out.
-/

namespace PortForwarding.Limiter

/-! ## What happens to a limiter -/

inductive Event where
  | observed (subject error : String) (time : Nat)
  | reset (subject : String)
  /-- Whoever has not failed for `ttl` is forgotten. -/
  | swept (time ttl : Nat)

def Event.concerns (subject : String) : Event → Bool
  | .observed other _ _ | .reset other => other == subject
  | .swept _ _ => true

/-- A failure was observed, and this was decided. -/
structure Sighting where
  time : Nat
  decision : Decision
  deriving DecidableEq, Repr

def Sighting.reported (s : Sighting) : Bool :=
  s.decision.surface

/-- One failure of a subject, observed at least once and not forgotten since. -/
structure Run where
  error : String
  latest : Sighting
  /-- The sightings before, the latest first. -/
  earlier : List Sighting
  deriving DecidableEq, Repr

def Run.sightings (run : Run) : List Sighting :=
  run.latest :: run.earlier

/-- The sightings that an observation comes after: those of the same failure. -/
def past (error : String) : Option Run → List Sighting
  | some run => if run.error = error then run.sightings else []
  | none => []

/-- A limiter, and what it has decided for one subject since the failure of the
subject was last forgotten or another one came. -/
structure Watch where
  limiter : Limiter
  run : Option Run

def Watch.next (subject : String) (w : Watch) : Event → Watch
  | .observed other error time =>
    let told := w.limiter.observe other error time
    ⟨told.2,
      if other = subject then some ⟨error, ⟨time, told.1⟩, past error w.run⟩
      else w.run⟩
  | .reset other => ⟨w.limiter.reset other, if other = subject then none else w.run⟩
  | .swept time ttl =>
    ⟨w.limiter.purge time ttl, w.run.filter fun run =>
      decide (time - run.latest.time < ttl)⟩

/-- What has been decided for a subject in the course of these events. -/
def watch (subject : String) (events : List Event) : Watch :=
  events.foldl (Watch.next subject) ⟨.empty, none⟩

theorem watch_snoc (subject : String) (events : List Event) (event : Event) :
    watch subject (events ++ [event]) = (watch subject events).next subject event :=
  List.foldl_append ..

/-! ## The reference -/

def reports (sightings : List Sighting) : List Sighting :=
  sightings.filter Sighting.reported

/-- How many sightings there have been since the latest report. -/
def quiet (sightings : List Sighting) : Nat :=
  (sightings.takeWhile fun s => !s.reported).length

/-- How many observations the reports tell of. -/
def covered (sightings : List Sighting) : Nat :=
  (reports sightings).foldr (fun s n => s.decision.sinceSurfaced + n) 0

/-- How long the next report has to wait after this many. -/
def due (reported : Nat) : Nat :=
  wait (min reported topRung)

/-- **What is to be decided** about a failure with these sightings, which is
observed once more. -/
def reference (past : List Sighting) (now : Nat) : Decision :=
  match past.find? Sighting.reported with
  | none => ⟨true, none, past.length + 1, quiet past + 1⟩
  | some last =>
    let passed := now - last.time
    let wait := due (reports past).length
    if wait ≤ passed then ⟨true, none, past.length + 1, quiet past + 1⟩
    else ⟨false, some (wait - passed), past.length + 1, quiet past + 1⟩

/-- Each of the reports has waited for as long as it had to after the one
before it. -/
def Spaced : List Sighting → Prop
  | report :: before :: rest =>
    due (rest.length + 1) ≤ report.time - before.time ∧ Spaced (before :: rest)
  | _ => True

theorem seconds_le_seconds {m n : Nat} (h : m ≤ n) : seconds m ≤ seconds n := by
  unfold seconds
  omega

theorem wait_le_wait {m n : Nat} (h : m ≤ n) (hn : n ≤ topRung) :
    wait m ≤ wait n := by
  have hladder : ∀ n ≤ topRung, ∀ m ≤ n,
      ladder.getD m (ladder.getLastD 0) ≤ ladder.getD n (ladder.getLastD 0) := by decide
  exact seconds_le_seconds (hladder n hn m h)

/-- The more has been reported, the longer the next report has to wait. -/
theorem due_le_due {m n : Nat} (h : m ≤ n) : due m ≤ due n :=
  wait_le_wait (by omega) (Nat.min_le_right ..)

variable {subject other error : String} {e : FailureEntry} {run : Run} {now : Nat}
  {sightings : List Sighting} {s : Sighting} {events : List Event}

theorem reports_cons_of_reported (h : s.reported = true) :
    reports (s :: sightings) = s :: reports sightings :=
  List.filter_cons_of_pos h

theorem reports_cons_of_quiet (h : s.reported = false) :
    reports (s :: sightings) = reports sightings :=
  List.filter_cons_of_neg (by simp [h])

theorem covered_cons_of_reported (h : s.reported = true) :
    covered (s :: sightings) = s.decision.sinceSurfaced + covered sightings := by
  unfold covered
  rw [reports_cons_of_reported h, List.foldr_cons]

theorem covered_cons_of_quiet (h : s.reported = false) :
    covered (s :: sightings) = covered sightings := by
  unfold covered
  rw [reports_cons_of_quiet h]

theorem quiet_cons_of_reported (h : s.reported = true) :
    quiet (s :: sightings) = 0 := by
  simp [quiet, h]

theorem quiet_cons_of_quiet (h : s.reported = false) :
    quiet (s :: sightings) = quiet sightings + 1 := by
  simp [quiet, h]

theorem reports_eq_cons {last : Sighting}
    (h : sightings.find? Sighting.reported = some last) :
    ∃ rest, reports sightings = last :: rest := by
  obtain ⟨hlast, before, rest, rfl, hbefore⟩ := List.find?_eq_some_iff_append.mp h
  refine ⟨reports rest, ?_⟩
  unfold reports
  rw [List.filter_append, List.filter_cons_of_pos hlast]
  rw [List.filter_eq_nil_iff.mpr fun s hs => by simpa using hbefore s hs]
  rfl

variable {seen : List Sighting} {last : Sighting}

theorem reference_reported (hlast : seen.find? Sighting.reported = some last)
    (hdue : due (reports seen).length ≤ now - last.time) :
    reference seen now = ⟨true, none, seen.length + 1, quiet seen + 1⟩ := by
  simp [reference, hlast, hdue]

theorem reference_suppressed (hlast : seen.find? Sighting.reported = some last)
    (hmore : ¬due (reports seen).length ≤ now - last.time) :
    reference seen now =
      ⟨false, some (due (reports seen).length - (now - last.time)), seen.length + 1,
        quiet seen + 1⟩ := by
  simp [reference, hlast, hmore]

theorem reference_cases (seen : List Sighting) (now : Nat) :
    reference seen now = ⟨true, none, seen.length + 1, quiet seen + 1⟩ ∨
      ∃ last, seen.find? Sighting.reported = some last ∧
        now - last.time < due (reports seen).length ∧
        reference seen now =
          ⟨false, some (due (reports seen).length - (now - last.time)),
            seen.length + 1, quiet seen + 1⟩ := by
  cases hlast : seen.find? Sighting.reported with
  | none => exact Or.inl (by simp [reference, hlast])
  | some last =>
      by_cases hdue : due (reports seen).length ≤ now - last.time
      · exact Or.inl (reference_reported hlast hdue)
      · exact Or.inr ⟨last, rfl, Nat.lt_of_not_le hdue, reference_suppressed hlast hdue⟩

/-! ## One entry -/

/-- What an observation makes of the entry of its subject, and what is decided. -/
def step (entry : Option FailureEntry) (error : String) (now : Nat) :
    FailureEntry × Decision :=
  match entry with
  | none => (firstEntry error now, ⟨true, none, 1, 1⟩)
  | some e =>
      if e.error = error then again e now
      else (firstEntry error now, ⟨true, none, 1, 1⟩)

theorem step_same (h : e.error = error) : step (some e) error now = again e now :=
  if_pos h

theorem step_other (h : e.error ≠ error) :
    step (some e) error now = (firstEntry error now, ⟨true, none, 1, 1⟩) :=
  if_neg h

theorem surface_step_of_new {entry : Option FailureEntry}
    (h : ∀ e, entry = some e → e.error ≠ error) :
    (step entry error now).2.surface = true := by
  cases entry with
  | none => rfl
  | some e => rw [step_other (h e rfl)]

theorem observe_eq (l : Limiter) (subject error : String) (now : Nat) :
    l.observe subject error now =
      ((step (l.entries.get? subject) error now).2,
        ⟨l.entries.set subject (step (l.entries.get? subject) error now).1⟩) := by
  unfold observe
  split
  · next h =>
      rw [h]
      rfl
  · next e h =>
      rw [h]
      split
      -- the pair is taken apart without looking into it
      · next hsame =>
          have hstep : step (some e) error now = again e now := step_same hsame
          generalize step (some e) error now = after at hstep ⊢
          rw [← hstep]
      · next hother => rw [step_other hother]

/-- **What an entry keeps of a run.** -/
structure Tracks (e : FailureEntry) (run : Run) : Prop where
  error : e.error = run.error
  count : e.count = run.sightings.length
  surfacedCount : e.surfacedCount + quiet run.sightings = run.sightings.length
  rung : e.rung = min (reports run.sightings).length topRung
  lastSurfaced : ∃ last, run.sightings.find? Sighting.reported = some last ∧
    last.time = e.lastSurfaced
  lastSeen : e.lastSeen = run.latest.time
  /-- What the reports tell of is everything but the sightings since the
  latest one. -/
  tally : covered run.sightings + quiet run.sightings = run.sightings.length
  spaced : Spaced (reports run.sightings)

theorem Tracks.remaining_eq (h : Tracks e run) (now : Nat) :
    ∃ last, run.sightings.find? Sighting.reported = some last ∧
      remaining e now = due (reports run.sightings).length - (now - last.time) := by
  obtain ⟨last, hlast, htime⟩ := h.lastSurfaced
  refine ⟨last, hlast, ?_⟩
  unfold remaining due
  rw [h.rung, htime]

theorem tracks_first (error : String) (now : Nat) :
    Tracks (firstEntry error now) ⟨error, ⟨now, reference [] now⟩, []⟩ :=
  ⟨rfl, rfl, rfl, rfl, ⟨_, rfl, rfl⟩, rfl, rfl, trivial⟩

theorem Tracks.reported {d : Decision} {last : Sighting} (h : Tracks e run)
    (hd : d.surface = true) (hsince : d.sinceSurfaced = quiet run.sightings + 1)
    (hlast : run.sightings.find? Sighting.reported = some last)
    (hdue : due (reports run.sightings).length ≤ now - last.time) :
    Tracks { e with
        count := e.count + 1, lastSeen := now, lastSurfaced := now,
        surfacedCount := e.count + 1
        rung := min (e.rung + 1) topRung }
      ⟨run.error, ⟨now, d⟩, run.sightings⟩ := by
  have hreports : reports (⟨now, d⟩ :: run.sightings) =
      ⟨now, d⟩ :: reports run.sightings :=
    reports_cons_of_reported hd
  have hquiet : quiet (⟨now, d⟩ :: run.sightings) = 0 := quiet_cons_of_reported hd
  have hcount := h.count
  have hrung := h.rung
  have htally := h.tally
  refine ⟨h.error, by simp [Run.sightings, hcount], ?_, ?_,
    ⟨⟨now, d⟩, ?_, rfl⟩, rfl, ?_, ?_⟩
  · show e.count + 1 + quiet (⟨now, d⟩ :: run.sightings) = run.sightings.length + 1
    omega
  · show min (e.rung + 1) topRung =
      min (reports (⟨now, d⟩ :: run.sightings)).length topRung
    rw [hreports, List.length_cons]
    omega
  · exact List.find?_cons_of_pos hd
  · show covered (⟨now, d⟩ :: run.sightings) + quiet (⟨now, d⟩ :: run.sightings) =
      run.sightings.length + 1
    rw [covered_cons_of_reported (s := ⟨now, d⟩) hd, hquiet]
    show d.sinceSurfaced + _ + 0 = _
    omega
  · show Spaced (reports (⟨now, d⟩ :: run.sightings))
    obtain ⟨rest, hrest⟩ := reports_eq_cons hlast
    have hspaced := h.spaced
    rw [hrest] at hdue hspaced
    rw [hreports, hrest]
    exact ⟨hdue, hspaced⟩

theorem Tracks.suppressed {d : Decision} (h : Tracks e run) (hd : d.surface = false) :
    Tracks { e with count := e.count + 1, lastSeen := now }
      ⟨run.error, ⟨now, d⟩, run.sightings⟩ := by
  have hreports : reports (⟨now, d⟩ :: run.sightings) = reports run.sightings :=
    reports_cons_of_quiet hd
  have hquiet : quiet (⟨now, d⟩ :: run.sightings) = quiet run.sightings + 1 :=
    quiet_cons_of_quiet hd
  have hcount := h.count
  have hsurfaced := h.surfacedCount
  have htally := h.tally
  refine ⟨h.error, by simp [Run.sightings, hcount], ?_, ?_, ?_, rfl, ?_, ?_⟩
  · show e.surfacedCount + quiet (⟨now, d⟩ :: run.sightings) = run.sightings.length + 1
    omega
  · show e.rung = min (reports (⟨now, d⟩ :: run.sightings)).length topRung
    rw [hreports, h.rung]
  · obtain ⟨last, hlast, htime⟩ := h.lastSurfaced
    exact ⟨last,
      (List.find?_cons_of_neg (by simp [Sighting.reported, hd])).trans hlast,
      htime⟩
  · show covered (⟨now, d⟩ :: run.sightings) + quiet (⟨now, d⟩ :: run.sightings) =
      run.sightings.length + 1
    rw [covered_cons_of_quiet (s := ⟨now, d⟩) hd]
    omega
  · show Spaced (reports (⟨now, d⟩ :: run.sightings))
    rw [hreports]
    exact h.spaced

/-- **One more sighting** of the same failure. -/
theorem Tracks.again (h : Tracks e run) (now : Nat) :
    (again e now).2 = reference run.sightings now ∧
      Tracks (again e now).1 ⟨run.error, ⟨now, reference run.sightings now⟩,
        run.sightings⟩ := by
  obtain ⟨last, hlast, hleft⟩ := h.remaining_eq now
  have hcount := h.count
  have hsince : run.sightings.length + 1 - e.surfacedCount = quiet run.sightings + 1 := by
    have hsurfaced := h.surfacedCount
    omega
  by_cases hdue : due (reports run.sightings).length ≤ now - last.time
  · have href := reference_reported hlast hdue
    have hagain : Limiter.again e now = ({ e with
        count := e.count + 1, lastSeen := now, lastSurfaced := now,
        surfacedCount := e.count + 1
        rung := min (e.rung + 1) topRung }, reference run.sightings now) := by
      have hzero : remaining e now = 0 := by omega
      simp only [Limiter.again, hzero, if_true, hcount, hsince, href]
    rw [hagain]
    exact ⟨rfl, h.reported (by rw [href]) (by rw [href]) hlast hdue⟩
  · have href := reference_suppressed hlast hdue
    have hagain : Limiter.again e now =
        ({ e with count := e.count + 1, lastSeen := now },
          reference run.sightings now) := by
      have hpos : remaining e now ≠ 0 := by omega
      simp only [Limiter.again, hpos, if_false, hcount, hsince, href]
      rw [hleft]
    rw [hagain]
    exact ⟨rfl, h.suppressed (by rw [href])⟩

abbrev Tracked (entry : Option FailureEntry) (run : Option Run) : Prop :=
  Option.Rel Tracks entry run

/-- **One observation** of a subject. -/
theorem Tracked.step {entry : Option FailureEntry} {run : Option Run}
    (h : Tracked entry run) (error : String) (now : Nat) :
    (step entry error now).2 = reference (past error run) now ∧
      Tracks (step entry error now).1
        ⟨error, ⟨now, reference (past error run) now⟩, past error run⟩ := by
  cases h with
  | none => exact ⟨rfl, tracks_first error now⟩
  | @some e run h =>
      by_cases herror : run.error = error
      · subst herror
        rw [step_same h.error]
        simp only [past, if_true]
        exact h.again now
      · rw [step_other (h.error.trans_ne herror)]
        simp only [past, herror, if_false]
        exact ⟨rfl, tracks_first error now⟩

/-! ## Every course of events -/

variable {w w' : Watch} {event : Event}

theorem get?_observe (l : Limiter) (subject other error : String) (now : Nat) :
    (l.observe other error now).2.entries.get? subject =
      if other = subject then some (step (l.entries.get? subject) error now).1
      else l.entries.get? subject := by
  rw [observe_eq, Table.get?_set]
  split
  · next h => rw [h]
  · rfl

theorem tracked_next (h : Tracked (w.limiter.entries.get? subject) w.run)
    (event : Event) :
    Tracked ((w.next subject event).limiter.entries.get? subject)
      (w.next subject event).run := by
  cases event with
  | observed other error time =>
      show Tracked ((w.limiter.observe other error time).2.entries.get? subject)
        (if other = subject then
          some ⟨error, ⟨time, (w.limiter.observe other error time).1⟩, past error w.run⟩
        else w.run)
      rw [get?_observe]
      by_cases hother : other = subject
      · subst hother
        obtain ⟨hdecision, htracks⟩ := h.step error time
        rw [if_pos rfl, if_pos rfl, observe_eq, hdecision]
        exact .some htracks
      · rw [if_neg hother, if_neg hother]
        exact h
  | reset other =>
      show Tracked ((w.limiter.entries.erase other).get? subject)
        (if other = subject then none else w.run)
      rw [Table.get?_erase]
      by_cases hother : other = subject
      · rw [if_pos hother, if_pos hother]
        exact .none
      · rw [if_neg hother, if_neg hother]
        exact h
  | swept time ttl =>
      show Tracked ((w.limiter.entries.filter _).get? subject) (w.run.filter _)
      rw [Table.get?_filter]
      generalize w.limiter.entries.get? subject = entry at h ⊢
      generalize w.run = run at h ⊢
      cases h with
      | none => exact .none
      | @some e run h =>
          rw [Option.filter_some, Option.filter_some, h.lastSeen]
          split
          · exact .some h
          · exact .none

theorem tracked_watch (subject : String) (events : List Event) :
    Tracked ((watch subject events).limiter.entries.get? subject)
      (watch subject events).run := by
  induction events using List.reverseRecOn with
  | nil => exact .none
  | append_singleton events event ih =>
      rw [watch_snoc]
      exact tracked_next ih event

/-! ## Other subjects -/

structure Watch.Agree (subject : String) (w w' : Watch) : Prop where
  entry : w.limiter.entries.get? subject = w'.limiter.entries.get? subject
  run : w.run = w'.run

theorem Watch.Agree.decision (h : w.Agree subject w') (error : String) (now : Nat) :
    (w.limiter.observe subject error now).1 =
      (w'.limiter.observe subject error now).1 := by
  rw [observe_eq, observe_eq, h.entry]

theorem Watch.Agree.next (h : w.Agree subject w') (event : Event) :
    (w.next subject event).Agree subject (w'.next subject event) := by
  cases event with
  | observed other error time =>
      refine ⟨?_, ?_⟩
      · show (w.limiter.observe other error time).2.entries.get? subject =
          (w'.limiter.observe other error time).2.entries.get? subject
        rw [get?_observe, get?_observe, h.entry]
      · show (if other = subject then
          some ⟨error, ⟨time, (w.limiter.observe other error time).1⟩,
            past error w.run⟩
          else w.run) =
          if other = subject then
            some ⟨error, ⟨time, (w'.limiter.observe other error time).1⟩,
              past error w'.run⟩
          else w'.run
        by_cases hother : other = subject
        · subst hother
          rw [if_pos rfl, if_pos rfl, h.decision, h.run]
        · rw [if_neg hother, if_neg hother, h.run]
  | reset other =>
      refine ⟨?_, ?_⟩
      · show (w.limiter.entries.erase other).get? subject =
          (w'.limiter.entries.erase other).get? subject
        rw [Table.get?_erase, Table.get?_erase, h.entry]
      · show (if other = subject then none else w.run) =
          if other = subject then none else w'.run
        rw [h.run]
  | swept time ttl =>
      refine ⟨?_, congrArg (Option.filter _) h.run⟩
      show (w.limiter.entries.filter _).get? subject =
        (w'.limiter.entries.filter _).get? subject
      rw [Table.get?_filter, Table.get?_filter, h.entry]

theorem Watch.next_of_foreign (h : event.concerns subject = false) :
    (w.next subject event).Agree subject w := by
  cases event with
  | observed other error time =>
      have hother : other ≠ subject := by simpa [Event.concerns] using h
      refine ⟨?_, if_neg hother⟩
      show (w.limiter.observe other error time).2.entries.get? subject = _
      rw [get?_observe, if_neg hother]
  | reset other =>
      have hother : other ≠ subject := by simpa [Event.concerns] using h
      refine ⟨?_, if_neg hother⟩
      show (w.limiter.entries.erase other).get? subject = _
      rw [Table.get?_erase, if_neg hother]
  | swept time ttl => exact absurd h (by simp [Event.concerns])

/-- **What happens to others does not matter.** -/
theorem watch_filter (subject : String) (events : List Event) :
    (watch subject events).Agree subject
      (watch subject (events.filter (Event.concerns subject))) := by
  induction events using List.reverseRecOn with
  | nil => exact ⟨rfl, rfl⟩
  | append_singleton events event ih =>
      rw [List.filter_append, watch_snoc]
      by_cases h : event.concerns subject = true
      · rw [List.filter_cons_of_pos h, List.filter_nil, watch_snoc]
        exact ih.next event
      · rw [List.filter_cons_of_neg h, List.filter_nil, List.append_nil]
        have hsame : ((watch subject events).next subject event).Agree subject _ :=
          Watch.next_of_foreign (by simpa using h)
        exact ⟨hsame.entry.trans ih.entry, hsame.run.trans ih.run⟩

/-! ## What is decided -/

/-- **What becomes of an observation** that comes after these sightings of the
same failure. -/
structure Meets (seen : List Sighting) (subject : String) (now : Nat) (d : Decision)
    (after : Limiter) : Prop where
  decision : d = reference seen now
  /-- What is not reported is told to come back when it would be, and no sooner. -/
  suppressed : d.surface = false → ∃ left, 0 < left ∧ d.requeueAfter = some left ∧
    after.remaining? subject now = some left
  /-- How long the next report has to wait: no less than any before it. -/
  wait : after.requiredWait? subject = some (due (reports (⟨now, d⟩ :: seen)).length)
  growing : ∀ n ≤ (reports (⟨now, d⟩ :: seen)).length,
    due n ≤ due (reports (⟨now, d⟩ :: seen)).length
  spaced : Spaced (reports (⟨now, d⟩ :: seen))
  /-- Every observation is told of in one report, or will be in the next one. -/
  tally : covered seen + d.sinceSurfaced = d.count

theorem Tracks.meets {l : Limiter} {d : Decision}
    (h : Tracks e ⟨error, ⟨now, d⟩, seen⟩)
    (hentry : l.entries.get? subject = some e) (hd : d = reference seen now) :
    Meets seen subject now d l := by
  have hwait : l.requiredWait? subject =
      some (due (reports (⟨now, d⟩ :: seen)).length) := by
    unfold requiredWait? due
    rw [hentry, Option.map_some, h.rung]
    rfl
  have htally : covered (⟨now, d⟩ :: seen) + quiet (⟨now, d⟩ :: seen) =
    seen.length + 1 := h.tally
  rcases reference_cases seen now with href | ⟨last, hlast, hmore, href⟩
  · rw [← hd] at href
    have hreported : Sighting.reported ⟨now, d⟩ = true := congrArg Decision.surface href
    rw [covered_cons_of_reported hreported, quiet_cons_of_reported hreported] at htally
    refine ⟨hd, fun hquiet => absurd (hreported.symm.trans hquiet) (by simp), hwait,
      fun _ => due_le_due, h.spaced, ?_⟩
    rw [href] at htally ⊢
    dsimp only at htally ⊢
    omega
  · rw [← hd] at href
    have hquiet : Sighting.reported ⟨now, d⟩ = false := congrArg Decision.surface href
    obtain ⟨last', hlast', hleft⟩ :
        ∃ last', (⟨now, d⟩ :: seen).find? Sighting.reported = some last' ∧
          remaining e now = due (reports (⟨now, d⟩ :: seen)).length -
              (now - last'.time) :=
      h.remaining_eq now
    rw [List.find?_cons_of_neg (by simp [hquiet]), hlast] at hlast'
    obtain rfl := Option.some.inj hlast'
    rw [reports_cons_of_quiet hquiet] at hleft
    rw [covered_cons_of_quiet hquiet, quiet_cons_of_quiet hquiet] at htally
    refine ⟨hd, fun _ => ⟨due (reports seen).length - (now - last.time), by omega,
      ?_, ?_⟩, hwait, fun _ => due_le_due, h.spaced, ?_⟩
    · rw [href]
    · unfold remaining?
      rw [hentry, Option.map_some, hleft, Option.filter_some, if_pos]
      exact decide_eq_true (by omega)
    · rw [href]
      exact htally

/-- **The limiter meets its reference**, whatever has happened to it: what it
decides about a failure follows from what it has decided about the same failure of
the same subject since it was last forgotten, and everything that had nothing to
do with the subject can as well not have happened. -/
theorem observe_meets (events : List Event) (subject error : String) (now : Nat) :
    let w := watch subject events
    let own := watch subject (events.filter (Event.concerns subject))
    Meets (past error w.run) subject now (w.limiter.observe subject error now).1
        (w.limiter.observe subject error now).2 ∧
      w.run = own.run ∧
      (w.limiter.observe subject error now).1 =
          (own.limiter.observe subject error now).1 := by
  intro w own
  obtain ⟨hdecision, htracks⟩ := (tracked_watch subject events).step error now
  have hagree : w.Agree subject own := watch_filter subject events
  refine ⟨?_, hagree.run, hagree.decision error now⟩
  have hobserved : (w.limiter.observe subject error now).1 =
      reference (past error w.run) now := by
    rw [observe_eq]
    exact hdecision
  have hentry : (w.limiter.observe subject error now).2.entries.get? subject =
      some (step (w.limiter.entries.get? subject) error now).1 := by
    rw [get?_observe, if_pos rfl]
  rw [← hobserved] at htracks
  exact htracks.meets hentry hobserved

end PortForwarding.Limiter
