import PortForwarding.Proofs.Pass.Removal

/-!
# The budget of attempts

A deletion is cleaned up after in passes, of which each may be stopped after any
call and any call of which may fail. The record on the Service is all that one
pass leaves to the next. It never counts more attempts than are allowed, and a
pass that finds them used up leaves the router alone and lets the Service go. A
pass takes the record off only after the router has listed its rules and every
owned one was removed or not found (`Run.keeps_iff`). Until there is such a pass,
the record never counts down, and it counts every pass that has come as far as the
router (`budget`).
-/

namespace PortForwarding.Cleanup

open Script Stored Removal

variable {settings : CleanupSettings} {n : UInt32} {s t : Stored}

/-- One pass, which may have been stopped. -/
structure Run (settings : CleanupSettings) where
  view : ServiceView
  first : Stored
  steps : List (Exchange × Stored)
  /-- None if the pass was stopped. -/
  result : Option (Except StoreError CleanupOutcome)
  last : Stored
  seen : first.SeenAs view
  course : Course May (pass settings view).run first steps result last

namespace Run

def moments (run : Run settings) : List Stored :=
  run.first :: run.steps.map Prod.snd

def reaches (run : Run settings) : Bool :=
  run.steps.any fun step => callsRouter step.1

/-- The pass was over before it began: the last attempt was not long enough ago. -/
def HoldsOff (run : Run settings) : Prop :=
  ∃ (after : Nat) (attempts : UInt32) (error : String) (time : Timestamp),
    run.result = some (.ok (.retry after attempts error)) ∧ time.Reading ∧
      time.instant = run.last.clock ∧
      run.first.record.retryWait settings.retryInterval time = some after

/-- The pass has removed every owned rule, and has then taken the record off
the Service. -/
def CleansUp (run : Run settings) : Prop :=
  ∃ before x after, run.steps.map Prod.fst = before ++ x :: after ∧ clears x = true ∧
    Emptied run.view.key before

def Keeps (run : Run settings) : Prop :=
  ∀ step ∈ run.steps, clears step.1 = false

theorem ensured (run : Run settings) :
    Along (Accounts settings run.first.attempts) run.first run.steps ∧
      ∀ r ∈ run.result, Ended settings run.first r run.last :=
  run.course.of_ensures (pass_ensures settings run.seen)

end Run

/-- Passes for one Service, each of which finds what the one before has left. -/
inductive History (settings : CleanupSettings) (first : Stored) :
    List (Run settings) → Stored → Prop
  | start : History settings first [] first
  | run {runs : List (Run settings)} (next : Run settings)
      (earlier : History settings first runs next.first) :
      History settings first (runs ++ [next]) next.last

/-! ## One pass -/

theorem bounded_along {steps : List (Exchange × Stored)}
    (h : Along (Accounts settings n) s steps) :
    ∀ u ∈ steps.map Prod.snd, Bounded settings n u.attempts := by
  induction steps generalizing s with
  | nil =>
      intro u hu
      exact absurd hu (by simp)
  | cons step steps ih =>
      intro u hu
      rcases List.mem_cons.mp hu with rfl | hu
      · exact h.1.bound
      · exact ih h.2 u hu

theorem grows_along {script : Script (Except StoreError CleanupOutcome)}
    {steps : List (Exchange × Stored)}
    {result : Option (Except StoreError CleanupOutcome)}
    (hcourse : Course May script s steps result t)
    (h : Along (Accounts settings n) s steps)
    (hkeeps : ∀ step ∈ steps, clears step.1 = false) :
    ((s :: steps.map Prod.snd).map fun u => u.attempts.toNat).Pairwise (· ≤ ·) ∧
      ∀ u ∈ s :: steps.map Prod.snd, u.attempts.toNat ≤ t.attempts.toNat := by
  induction hcourse with
  | stop script s =>
      refine ⟨List.pairwise_singleton _ _, fun u hu => ?_⟩
      obtain rfl := List.mem_singleton.mp hu
      exact Nat.le_refl _
  | done a s =>
      refine ⟨List.pairwise_singleton _ _, fun u hu => ?_⟩
      obtain rfl := List.mem_singleton.mp hu
      exact Nat.le_refl _
  | @ask r next reply s t' _ rest _ now later ih =>
      obtain ⟨hstep, hrest⟩ := h
      obtain ⟨hpairwise, hle⟩ := ih hrest fun step hmem =>
        hkeeps step (List.mem_cons_of_mem _ hmem)
      have hgrows : s.attempts.toNat ≤ t'.attempts.toNat := by
        rcases hstep.grows with hclears | hgrows
        · exact absurd (hclears.symm.trans (hkeeps _ List.mem_cons_self)) (by decide)
        · exact UInt32.le_iff_toNat_le.mp hgrows
      refine ⟨List.pairwise_cons.mpr ⟨fun a ha => ?_, hpairwise⟩, fun u hu => ?_⟩
      · rcases List.mem_cons.mp ha with rfl | ha
        · exact hgrows
        · exact Nat.le_trans hgrows ((List.pairwise_cons.mp hpairwise).1 a ha)
      · rcases List.mem_cons.mp hu with rfl | hu
        · exact Nat.le_trans hgrows (hle _ List.mem_cons_self)
        · exact hle u hu

theorem reaches_along {steps : List (Exchange × Stored)}
    (h : Along (Accounts settings n) s steps)
    (hreaches : ∃ step ∈ steps, callsRouter step.1 = true) :
    n < settings.maxRetries ∧ ∃ u ∈ steps.map Prod.snd, u.attempts = n + 1 := by
  induction steps generalizing s with
  | nil =>
      obtain ⟨step, hmem, -⟩ := hreaches
      exact absurd hmem (by simp)
  | cons step steps ih =>
      obtain ⟨x, t⟩ := step
      by_cases hx : callsRouter x = true
      · obtain ⟨rfl, hcount, hlt⟩ := h.1.router hx
        exact ⟨hlt, t, List.mem_cons_self, hcount⟩
      · obtain ⟨step, hmem, hcalls⟩ := hreaches
        rcases List.mem_cons.mp hmem with rfl | hmem
        · exact absurd hcalls hx
        · obtain ⟨hlt, u, hu, hcount⟩ := ih h.2 ⟨step, hmem, hcalls⟩
          exact ⟨hlt, u, List.mem_cons_of_mem _ hu, hcount⟩

namespace Run

variable {run : Run settings}

theorem offRecord_of_clears {x : Exchange} (h : clears x = true) : OffRecord x.1 := by
  unfold clears at h
  split at h
  · exact beq_iff_eq.mp h
  · exact absurd h Bool.false_ne_true

/-- **Only a pass that has removed every owned rule takes the record off.** -/
theorem keeps_iff : run.Keeps ↔ ¬run.CleansUp := by
  constructor
  · rintro hkeeps ⟨before, x, after, hsteps, hclears, -⟩
    have hmem : x ∈ run.steps.map Prod.fst :=
      hsteps ▸ List.mem_append_right before List.mem_cons_self
    obtain ⟨step, hstep, rfl⟩ := List.mem_map.mp hmem
    exact Bool.false_ne_true ((hkeeps step hstep).symm.trans hclears)
  · intro hnever step hstep
    by_contra hclears
    rw [Bool.not_eq_false] at hclears
    obtain ⟨before, after, hsteps⟩ :=
      List.append_of_mem (List.mem_map_of_mem (f := Prod.fst) hstep)
    -- a pass that was stopped has done no more than one that goes on to its end
    obtain ⟨rest, result, hruns⟩ := run.course.exists_runs (Stored.answer default)
    have hrules : Preceded OffRecord (Emptied run.view.key) (run.steps.map Prod.fst) :=
      (cleaning_of_runs hruns).cleared.of_append
    have hemptied := hrules before step.1 after hsteps (offRecord_of_clears hclears)
    exact hnever ⟨before, step.1, after, hsteps, hclears, hemptied⟩

theorem reaches_iff :
    run.reaches = true ↔ ∃ step ∈ run.steps, callsRouter step.1 = true :=
  List.any_eq_true

/-- In a pass that keeps the record the count grows from moment to moment, at
least to the last. -/
theorem grows (hkeeps : run.Keeps) :
    (run.moments.map fun s => s.attempts.toNat).Pairwise (· ≤ ·) ∧
      ∀ s ∈ run.moments, s.attempts.toNat ≤ run.last.attempts.toNat :=
  grows_along run.course run.ensured.1 hkeeps

theorem bounded (hfirst : run.first.attempts ≤ settings.maxRetries) :
    ∀ s ∈ run.moments, s.attempts ≤ settings.maxRetries := by
  intro s hs
  rcases List.mem_cons.mp hs with rfl | hs
  · exact hfirst
  · rcases bounded_along run.ensured.1 s hs with hzero | hsame | ⟨hraised, hlt⟩
    · rw [hzero]
      exact UInt32.zero_le
    · rw [hsame]
      exact hfirst
    · rw [UInt32.le_iff_toNat_le, hraised, toNat_succ_of_lt hlt]
      exact UInt32.lt_iff_toNat_lt.mp hlt

theorem counts_of_reaches (hkeeps : run.Keeps) (hreaches : run.reaches = true) :
    run.first.attempts.toNat + 1 ≤ run.last.attempts.toNat := by
  obtain ⟨hlt, u, hu, hcount⟩ := reaches_along run.ensured.1 (reaches_iff.mp hreaches)
  rw [← toNat_succ_of_lt hlt, ← hcount]
  exact (grows hkeeps).2 u (List.mem_cons_of_mem _ hu)

theorem counts_first (run : Run settings) :
    Along (fun s x _ => callsRouter x = true →
      s.attempts.toNat = run.first.attempts.toNat + 1) run.first run.steps := by
  refine run.ensured.1.imp fun s x t hstep hcalls => ?_
  obtain ⟨-, hcount, hlt⟩ := hstep.router hcalls
  rw [hcount, toNat_succ_of_lt hlt]

/-- **A pass that finds the attempts used up leaves the router alone.** If it is
not stopped, it holds off, it lets the Service go, or it fails. -/
theorem spent (hspent : settings.maxRetries ≤ run.first.attempts) :
    run.reaches = false ∧
      ∀ r ∈ run.result, run.HoldsOff ∨ run.last.Released ∨ ∃ e, r = .error e := by
  have hnot : ¬run.first.attempts < settings.maxRetries := UInt32.not_lt.mpr hspent
  constructor
  · rw [Bool.eq_false_iff]
    intro hreaches
    exact hnot (reaches_along run.ensured.1 (reaches_iff.mp hreaches)).1
  · intro r hr
    have hended := (run.ensured.2 r hr).2
    cases r with
    | error e => exact Or.inr (Or.inr ⟨e, rfl⟩)
    | ok outcome =>
        cases outcome with
        | retry after attempts error =>
            rcases hended with ⟨-, time, hreading, hclock, hwait⟩ | ⟨hlt, -⟩
            · exact Or.inl ⟨after, attempts, error, time, hr, hreading, hclock, hwait⟩
            · exact absurd hlt hnot
        | completed removed => exact absurd hended.1 hnot
        | forced attempts => exact Or.inr (Or.inl hended.2)

end Run

/-! ## One pass after another -/

variable {first last : Stored} {runs : List (Run settings)}

theorem moments_append (runs : List (Run settings)) (next : Run settings) :
    (runs ++ [next]).flatMap Run.moments =
      runs.flatMap Run.moments ++ next.moments := by
  rw [List.flatMap_append, List.flatMap_singleton]

theorem History.bounded (h : History settings first runs last)
    (hfirst : first.attempts ≤ settings.maxRetries) :
    (∀ s ∈ runs.flatMap Run.moments, s.attempts ≤ settings.maxRetries) ∧
      last.attempts ≤ settings.maxRetries := by
  induction h with
  | start => exact ⟨by simp, hfirst⟩
  | run next earlier ih =>
      have hnext := Run.bounded ih.2
      refine ⟨?_, hnext _ next.course.last_mem⟩
      rw [moments_append, List.forall_mem_append]
      exact ⟨ih.1, hnext⟩

/-- The count has grown from moment to moment, with every pass that has reached
the router. -/
structure Counted (runs : List (Run settings)) (last : Stored) : Prop where
  grows : ((runs.flatMap Run.moments).map fun s => s.attempts.toNat).Pairwise (· ≤ ·)
  le_last : ∀ s ∈ runs.flatMap Run.moments, s.attempts.toNat ≤ last.attempts.toNat
  counts : runs.countP Run.reaches ≤ last.attempts.toNat

theorem Counted.run {next : Run settings} (h : Counted runs next.first)
    (hkeeps : next.Keeps) : Counted (runs ++ [next]) next.last := by
  obtain ⟨hgrows, hend⟩ := Run.grows hkeeps
  have hstarts : ∀ s ∈ next.moments, next.first.attempts.toNat ≤ s.attempts.toNat := by
    intro s hs
    rcases List.mem_cons.mp hs with rfl | hs
    · exact Nat.le_refl _
    · exact (List.pairwise_cons.mp hgrows).1 _ (List.mem_map_of_mem hs)
  have hcounts : next.first.attempts.toNat + (if next.reaches then 1 else 0) ≤
      next.last.attempts.toNat := by
    split
    · next hreaches => exact Run.counts_of_reaches hkeeps hreaches
    · exact hend _ List.mem_cons_self
  constructor
  case grows =>
    rw [moments_append, List.map_append, List.pairwise_append]
    refine ⟨h.grows, hgrows, fun a ha b hb => ?_⟩
    obtain ⟨u, hu, rfl⟩ := List.mem_map.mp ha
    obtain ⟨v, hv, rfl⟩ := List.mem_map.mp hb
    exact Nat.le_trans (h.le_last u hu) (hstarts v hv)
  case le_last =>
    rw [moments_append, List.forall_mem_append]
    exact ⟨fun s hs => Nat.le_trans (h.le_last s hs) (hend _ List.mem_cons_self), hend⟩
  case counts =>
    have hsum := h.counts
    rw [List.countP_append, List.countP_singleton]
    omega

theorem History.counted (h : History settings first runs last)
    (hkeeps : ∀ run ∈ runs, run.Keeps) : Counted runs last := by
  induction h with
  | start => exact ⟨List.Pairwise.nil, by simp, Nat.zero_le _⟩
  | run next earlier ih =>
      apply Counted.run
      · exact ih fun run hrun => hkeeps run (List.mem_append_left _ hrun)
      · exact hkeeps next (List.mem_append_right _ List.mem_cons_self)

/-- **The attempts of a cleanup are counted, and there are no more than allowed.**
The router is only called with the raised count on the Service, and not at all
where the attempts are used up. Until a pass has removed every owned rule and
taken the record off, the count never goes down, and as many attempts are counted
as passes have reached the router. As a pass may have been stopped after any call,
what holds at the end of every history holds at every moment. -/
theorem budget (h : History settings first runs last)
    (hfirst : first.object.annotation? Mark.cleanupState = none) :
    (∀ s ∈ runs.flatMap Run.moments, s.attempts ≤ settings.maxRetries) ∧
      (∀ run ∈ runs,
        Along (fun s x _ => callsRouter x = true →
          s.attempts.toNat = run.first.attempts.toNat + 1) run.first run.steps ∧
        (settings.maxRetries ≤ run.first.attempts → run.reaches = false ∧
          ∀ r ∈ run.result, run.HoldsOff ∨ run.last.Released ∨ ∃ e, r = .error e)) ∧
      ((∀ run ∈ runs, ¬run.CleansUp) →
        ((runs.flatMap Run.moments).map fun s => s.attempts.toNat).Pairwise (· ≤ ·) ∧
        runs.countP Run.reaches ≤ last.attempts.toNat) := by
  have hzero : first.attempts = 0 := by
    unfold Stored.attempts Stored.record
    rw [hfirst]
    rfl
  refine ⟨(h.bounded ?_).1, ?_, ?_⟩
  · rw [hzero]
    exact UInt32.zero_le
  · intro run _
    exact ⟨run.counts_first, Run.spent⟩
  · intro hnever
    have hcounted := h.counted fun run hrun => Run.keeps_iff.mpr (hnever run hrun)
    exact ⟨hcounted.grows, hcounted.counts⟩

end PortForwarding.Cleanup

/-! ## A router that is down -/

namespace PortForwarding.Sample

open Cleanup Script

def glimpse (s : Stored) : ServiceView :=
  { key := s.object.key
    annotations := s.object.annotations
    ports := []
    destination := none
    deleting := true
    hasFinalizer := true
    reference := s.object.reference }

def vainRun (s : Stored) : Run oneAttempt :=
  { view := glimpse s
    first := s
    steps := trace (Stored.answer epoch) (pass oneAttempt (glimpse s)).run s
    result := some (run (Stored.answer epoch) (pass oneAttempt (glimpse s)).run s).1
    last := (run (Stored.answer epoch) (pass oneAttempt (glimpse s)).run s).2
    seen := ⟨rfl, rfl⟩
    course := course_trace (Stored.answer_may epoch_reading) _ _ }

def vainRuns : List (Run oneAttempt) :=
  [vainRun doomed, vainRun (vainRun doomed).last]

theorem vainRuns_history :
    History oneAttempt doomed vainRuns (vainRun (vainRun doomed).last).last :=
  .run (vainRun (vainRun doomed).last) (.run (vainRun doomed) .start)

end PortForwarding.Sample

namespace PortForwarding.Cleanup

open Script Sample

theorem budget_sample :
    (∀ s ∈ vainRuns.flatMap Run.moments, s.attempts ≤ oneAttempt.maxRetries) ∧
      (∀ run ∈ vainRuns,
        Along (fun s x _ => callsRouter x = true →
          s.attempts.toNat = run.first.attempts.toNat + 1) run.first run.steps ∧
        (oneAttempt.maxRetries ≤ run.first.attempts → run.reaches = false ∧
          ∀ r ∈ run.result, run.HoldsOff ∨ run.last.Released ∨ ∃ e, r = .error e)) ∧
      ((vainRuns.flatMap Run.moments).map fun s => s.attempts.toNat).Pairwise
        (· ≤ ·) ∧
      vainRuns.countP Run.reaches = 1 ∧
      1 ≤ (vainRun (vainRun doomed).last).last.attempts.toNat := by
  have hkeeps : ∀ run ∈ vainRuns, run.Keeps := by
    unfold Run.Keeps
    decide +kernel
  have hreaches : vainRuns.countP Run.reaches = 1 := by
    decide +kernel
  obtain ⟨hbound, hruns, hcount⟩ := budget vainRuns_history rfl
  obtain ⟨hgrows, hcounts⟩ := hcount fun run hrun => Run.keeps_iff.mp (hkeeps run hrun)
  exact ⟨hbound, hruns, hgrows, hreaches, hreaches ▸ hcounts⟩

end PortForwarding.Cleanup
