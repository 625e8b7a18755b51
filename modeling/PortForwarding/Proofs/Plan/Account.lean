import Mathlib.Data.List.Forall2
import PortForwarding.Plan.Outcome
import PortForwarding.Proofs.Pass.Asks
import PortForwarding.Proofs.Plan.Execution
import PortForwarding.Proofs.Script.Runs

/-!
# The account of a plan

What a plan asks of the router can be told from its result (`Accounted`): the
operations were tried in order, each once, up to the first that failed or up to
the signal to stop; what was carried out was then undone, the latest operation
first, up to the first that could not be undone. The outcome that is handed out
adds up accordingly (`Tallied`).

Nothing is supposed of the replies.
-/

namespace PortForwarding.Account

open Script

/-! ## Trying and undoing one operation -/

/-- **An operation is tried**: at most one call, and its reply. -/
inductive Tried (op : Operation) :
    List Exchange → Except RouterError RouterRule → Prop
  | create (reply : Except RouterError RouterRule) (hkind : op.kind = .create) :
      Tried op [⟨.router (.add op.rule.spec), reply⟩] reply
  | update (before : RouterRule) (reply : Except RouterError RouterRule)
      (hkind : op.kind = .update) (hexisting : op.existing = some before) :
      Tried op [⟨.router (.update before.id op.rule.spec), reply⟩] reply
  | delete (before : RouterRule) (reply : Except RouterError Unit)
      (hkind : op.kind = .delete) (hexisting : op.existing = some before) :
      Tried op [⟨.router (.remove before.id), reply⟩] (reply.map fun _ => before)
  /-- There is nothing to change. -/
  | aimless (e : RouterError) (hkind : op.kind ≠ .create)
      (hexisting : op.existing = none) : Tried op [] (.error e)

/-- **An operation is undone**, or it is not: the calls, and whether it is. -/
inductive Compensated : Compensation → List Exchange → Except RouterError Unit → Prop
  | removed (id : String) :
      Compensated (.remove id) [⟨.router (.remove id), .ok ()⟩] (.ok ())
  /-- The rule that was to be removed was gone already. -/
  | gone (id what : String) :
      Compensated (.remove id) [⟨.router (.remove id), .error (.notFound what)⟩] (.ok ())
  | stays (id : String) (e : RouterError) (he : ∀ what, e ≠ .notFound what) :
      Compensated (.remove id) [⟨.router (.remove id), .error e⟩] (.error e)
  | restored (id : String) (spec : RuleSpec) (rule : RouterRule) :
      Compensated (.restore id spec) [⟨.router (.update id spec), .ok rule⟩] (.ok ())
  /-- The rule that was to be written as it was had gone, and was made again
  or not. -/
  | remade (id : String) (spec : RuleSpec) (what : String)
      (reply : Except RouterError RouterRule) :
      Compensated (.restore id spec)
        [⟨.router (.update id spec), .error (.notFound what)⟩,
          ⟨.router (.add spec), reply⟩] (reply.map fun _ => ())
  | changed (id : String) (spec : RuleSpec) (e : RouterError)
      (he : ∀ what, e ≠ .notFound what) :
      Compensated (.restore id spec) [⟨.router (.update id spec), .error e⟩] (.error e)
  | recreated (spec : RuleSpec) (reply : Except RouterError RouterRule) :
      Compensated (.recreate spec) [⟨.router (.add spec), reply⟩] (reply.map fun _ => ())
  | nothing : Compensated .nothing [] (.ok ())

/-! ## The account -/

/-- The exchanges that a plan answers for: those with the router, and about the
signal to stop. -/
def watched : Exchange → Bool
  | ⟨.router _, _⟩ | ⟨.cancelled, _⟩ => true
  | _ => false

def Carried (c : Completed) (log : List Exchange) : Prop :=
  ∃ call, log = ⟨.cancelled, false⟩ :: call ∧ Tried c.operation call (.ok c.applied)

def Undone (listing : Option (List RouterRule)) (c : Completed)
    (log : List Exchange) : Prop :=
  Compensated (c.compensation listing) log (.ok ())

/-- **Operations are undone**, the latest first: all of them, or those before the
first that cannot be undone. -/
inductive Unwound (listing : Option (List RouterRule)) (latest : List Completed) :
    List Exchange → List Operation → Option (Operation × RouterError) → Prop
  | all (calls : List (List Exchange))
      (hundone : List.Forall₂ (Undone listing) latest calls) :
      Unwound listing latest calls.flatten (latest.map Completed.operation) none
  | stuck (undone : List Completed) (c : Completed) (earlier : List Completed)
      (calls : List (List Exchange)) (last : List Exchange) (e : RouterError)
      (hlatest : latest = undone ++ c :: earlier)
      (hundone : List.Forall₂ (Undone listing) undone calls)
      (hstuck : Compensated (c.compensation listing) last (.error e)) :
      Unwound listing latest (calls.flatten ++ last) (undone.map Completed.operation)
        (some (c.operation, e))

/-- **A plan is rolled back**: there is nothing to undo, or the router is listed
once before. -/
inductive RolledBack (latest : List Completed) :
    List Exchange → List Operation → Option (Operation × RouterError) → Prop
  | nothing (hnone : latest = []) : RolledBack latest [] [] none
  | looked (listing : Except RouterError (List RouterRule)) (log : List Exchange)
      (undone : List Operation) (failure : Option (Operation × RouterError))
      (hsome : latest ≠ [])
      (hunwound : Unwound listing.toOption latest log undone failure) :
      RolledBack latest (⟨.router .list, listing⟩ :: log) undone failure

/-- **What a plan has asked for, and how it ended.** -/
inductive Accounted (plan : List Operation) : List Exchange → Except Halt Unit → Prop
  | finished (done : List Completed) (calls : List (List Exchange))
      (hplan : plan = done.map Completed.operation)
      (hdone : List.Forall₂ Carried done calls) :
      Accounted plan calls.flatten (.ok ())
  | failed (done : List Completed) (op : Operation) (later : List Operation)
      (calls : List (List Exchange)) (call undoing : List Exchange) (e : RouterError)
      (undone : List Operation) (failure : Option (Operation × RouterError))
      (hplan : plan = done.map Completed.operation ++ op :: later)
      (hdone : List.Forall₂ Carried done calls) (hfailed : Tried op call (.error e))
      (hundoing : RolledBack done.reverse undoing undone failure) :
      Accounted plan (calls.flatten ++ (⟨.cancelled, false⟩ :: call ++ undoing))
        (.error ⟨.failed op e, done.map Completed.operation, later.length,
          undone, failure⟩)
  | cancelled (done : List Completed) (later : List Operation)
      (calls : List (List Exchange))
      (undoing : List Exchange) (undone : List Operation)
      (failure : Option (Operation × RouterError))
      (hplan : plan = done.map Completed.operation ++ later) (hlater : later ≠ [])
      (hdone : List.Forall₂ Carried done calls)
      (hundoing : RolledBack done.reverse undoing undone failure) :
      Accounted plan (calls.flatten ++ ⟨.cancelled, true⟩ :: undoing)
        (.error ⟨.cancelled, done.map Completed.operation, later.length, undone, failure⟩)

variable {log : List Exchange} {op : Operation} {plan todo : List Operation}
  {done latest : List Completed} {listing : Option (List RouterRule)}

/-! ## What is watched -/

theorem Tried.watched {reply : Except RouterError RouterRule}
    (h : Tried op log reply) : log.filter Account.watched = log := by
  cases h <;> rfl

theorem Compensated.watched {c : Compensation} {reply : Except RouterError Unit}
    (h : Compensated c log reply) : log.filter Account.watched = log := by
  cases h <;> rfl

def Unwatched (r : Request) : Prop :=
  ∀ reply, watched ⟨r, reply⟩ = false

theorem filter_watched_of_asks {α : Type} {script : Script α} {a : α}
    (hasks : Asks Unwatched script) (h : Runs script log a) :
    log.filter watched = [] := by
  rw [List.filter_eq_nil_iff]
  rintro ⟨r, reply⟩ hx
  have hunwatched : Unwatched r := hasks.runs h _ hx
  simp [hunwatched reply]

/-! ## One operation -/

theorem tried_of_runs {reply : Except RouterError RouterRule}
    (h : Runs (Plan.attempt op).run log reply) : Tried op log reply := by
  unfold Plan.attempt at h
  split at h
  · next hkind =>
      obtain rfl := runs_addRule.mp h
      exact .create reply hkind
  · next e hkind hexisting =>
      obtain rfl := runs_updateRule.mp h
      exact .update e reply hkind hexisting
  · next e hkind hexisting =>
      rcases runs_tryBind.mp h with ⟨before, u, after, rfl, hremove,
        hdone⟩ | ⟨e', hremove, rfl⟩
      · obtain rfl := runs_removeRule.mp hremove
        obtain ⟨rfl, rfl⟩ := runs_done.mp hdone
        exact .delete e (.ok u) hkind hexisting
      · obtain rfl := runs_removeRule.mp hremove
        exact .delete e (.error e') hkind hexisting
  · next hexisting hkind =>
      obtain ⟨rfl, rfl⟩ := runs_done.mp h
      exact .aimless _ hkind hexisting

theorem compensated_of_runs {c : Compensation} {reply : Except RouterError Unit}
    (h : Runs c.carryOut.run log reply) : Compensated c log reply := by
  cases c with
  | remove id =>
      obtain ⟨before, removed, after, rfl, hremove, hdone⟩ := runs_bind.mp h
      obtain rfl := runs_removeRule.mp hremove
      split at hdone
      · next what =>
          obtain ⟨rfl, rfl⟩ := runs_done.mp hdone
          exact .gone id what
      · next hne =>
          obtain ⟨rfl, rfl⟩ := runs_done.mp hdone
          cases reply with
          | ok u => exact .removed id
          | error e => exact .stays id e fun what heq => hne what (by rw [heq])
  | restore id spec =>
      have hrestored : ∀ {log reply}, Runs (Compensation.restored id spec).run log reply →
          Compensated (.restore id spec) log (reply.map fun _ => ()) := by
        intro log reply h
        obtain ⟨before, updated, after, rfl, hupdate, hrest⟩ := runs_bind.mp h
        obtain rfl := runs_updateRule.mp hupdate
        split at hrest
        · next what =>
            obtain rfl := runs_addRule.mp hrest
            exact .remade id spec what reply
        · next hne =>
            obtain ⟨rfl, rfl⟩ := runs_done.mp hrest
            cases reply with
            | ok rule => exact .restored id spec rule
            | error e => exact .changed id spec e fun what heq => hne what (by rw [heq])
      rcases runs_tryBind.mp h with ⟨before, rule, after, rfl, hrule,
        hdone⟩ | ⟨e, hrule, rfl⟩
      · obtain ⟨rfl, rfl⟩ := runs_done.mp hdone
        rw [List.append_nil]
        exact hrestored hrule
      · exact hrestored hrule
  | recreate spec =>
      rcases runs_tryBind.mp h with ⟨before, rule, after, rfl, hadd,
        hdone⟩ | ⟨e, hadd, rfl⟩
      · obtain rfl := runs_addRule.mp hadd
        obtain ⟨rfl, rfl⟩ := runs_done.mp hdone
        exact .recreated spec (.ok rule)
      · obtain rfl := runs_addRule.mp hadd
        exact .recreated spec (.error e)
  | nothing =>
      obtain ⟨rfl, rfl⟩ := runs_done.mp h
      exact .nothing

/-! ## Many operations -/

theorem filter_watched_reclaim {c : Completed} (h : Runs c.reclaim log ()) :
    log.filter watched = [] :=
  filter_watched_of_asks (Completed.asks_reclaim c fun _ _ _ => rfl) h

theorem Unwound.cons {c : Completed} {call : List Exchange}
    {undone : List Operation} {failure : Option (Operation × RouterError)}
    (h : Unwound listing latest log undone failure) (hc : Undone listing c call) :
    Unwound listing (c :: latest) (call ++ log) (c.operation :: undone) failure := by
  cases h with
  | all calls hundone => exact .all (call :: calls) (.cons hc hundone)
  | stuck undone failed earlier calls last e hlatest hundone hstuck =>
      have hall := Unwound.stuck (c :: undone) failed earlier (call :: calls) last e
        (congrArg (c :: ·) hlatest) (.cons hc hundone) hstuck
      rw [List.flatten_cons, List.append_assoc] at hall
      exact hall

theorem unwound_of_runs {undone : List Operation}
    {failure : Option (Operation × RouterError)}
    (h : Runs (Completed.undoAll listing latest) log (undone, failure)) :
    Unwound listing latest (log.filter watched) undone failure := by
  induction latest generalizing log undone failure with
  | nil =>
      obtain ⟨heq, rfl⟩ := runs_done.mp h
      obtain ⟨rfl, rfl⟩ := Prod.mk.inj heq
      exact .all [] .nil
  | cons c latest ih =>
      obtain ⟨before, reply, after, rfl, hcompensation, hrest⟩ := runs_bind.mp h
      have hcompensated := compensated_of_runs hcompensation
      cases reply with
      | error e =>
          obtain ⟨heq, rfl⟩ := runs_done.mp hrest
          obtain ⟨rfl, rfl⟩ := Prod.mk.inj heq
          rw [List.append_nil, hcompensated.watched]
          exact .stuck [] c latest [] before e rfl .nil hcompensated
      | ok u =>
          obtain ⟨reclaiming, _, after, rfl, hreclaim, hrest⟩ := runs_bind.mp hrest
          obtain ⟨later, ⟨undone', failure'⟩, last, rfl, hlater, hdone⟩ :=
            runs_bind.mp hrest
          obtain ⟨heq, rfl⟩ := runs_done.mp hdone
          obtain ⟨rfl, rfl⟩ := Prod.mk.inj heq
          rw [List.append_nil, List.filter_append, List.filter_append,
            hcompensated.watched, filter_watched_reclaim hreclaim,
            List.nil_append]
          exact (ih hlater).cons hcompensated

theorem rolledBack_of_runs {undone : List Operation}
    {failure : Option (Operation × RouterError)}
    (h : Runs (Completed.rollback latest) log (undone, failure)) :
    RolledBack latest (log.filter watched) undone failure := by
  unfold Completed.rollback at h
  split at h
  · next hnone =>
      obtain ⟨heq, rfl⟩ := runs_done.mp h
      obtain ⟨rfl, rfl⟩ := Prod.mk.inj heq
      exact .nothing (List.isEmpty_iff.mp hnone)
  · next hsome =>
      obtain ⟨before, listing, after, rfl, hlist, hundo⟩ := runs_bind.mp h
      obtain rfl := runs_listRules.mp hlist
      exact .looked listing _ undone failure (by simpa using hsome)
        (unwound_of_runs hundo)

theorem halt_of_runs {cause : HaltCause} {skipped : Nat} {halt : Halt}
    (h : Runs (Completed.halt latest cause skipped) log halt) :
    ∃ undone failure, RolledBack latest (log.filter watched) undone failure ∧
      halt = ⟨cause, latest.reverse.map Completed.operation, skipped, undone,
        failure⟩ := by
  obtain ⟨before, ⟨undone, failure⟩, after, rfl, hrollback, hdone⟩ := runs_bind.mp h
  obtain ⟨rfl, rfl⟩ := runs_done.mp hdone
  rw [List.append_nil]
  exact ⟨undone, failure, rolledBack_of_runs hrollback, rfl⟩

/-- What is still to be done after the operations `done`, the latest first. -/
theorem accounted_of_runs {needed : List UInt16} {calls : List (List Exchange)}
    {result : Except Halt Unit} (hdone : List.Forall₂ Carried latest.reverse calls)
    (h : Runs (Plan.executeAfter needed latest todo).run log result) :
    Accounted (latest.reverse.map Completed.operation ++ todo)
      (calls.flatten ++ log.filter watched) result := by
  -- along the plan, with the calls for the operations that were carried out
  -- before
  induction todo generalizing latest calls log with
  | nil =>
      obtain ⟨rfl, rfl⟩ := runs_done.mp h
      rw [List.append_nil, List.filter_nil, List.append_nil]
      exact .finished _ calls rfl hdone
  | cons op todo ih =>
      obtain ⟨asking, seen, rest, rfl, hseen, hrest⟩ := runs_bind.mp h
      obtain rfl := runs_isCancelled.mp hseen
      cases seen with
      | true =>
          obtain ⟨undoing, halt, after, rfl, hhalt, hend⟩ := runs_bind.mp hrest
          obtain ⟨rfl, rfl⟩ := runs_done.mp hend
          obtain ⟨undone, failure, hundoing, rfl⟩ := halt_of_runs hhalt
          rw [List.append_nil, List.filter_append]
          rw [← latest.reverse_reverse] at hundoing
          exact .cancelled _ (op :: todo) calls _ undone failure rfl
            (List.cons_ne_nil _ _) hdone hundoing
      | false =>
          obtain ⟨call, reply, after, rfl, hattempt, hrest⟩ := runs_bind.mp hrest
          have htried := tried_of_runs hattempt
          cases reply with
          | error e =>
              obtain ⟨undoing, halt, last, rfl, hhalt, hend⟩ := runs_bind.mp hrest
              obtain ⟨rfl, rfl⟩ := runs_done.mp hend
              obtain ⟨undone, failure, hundoing, rfl⟩ := halt_of_runs hhalt
              rw [List.append_nil, List.filter_append, List.filter_append, htried.watched]
              rw [← latest.reverse_reverse] at hundoing
              exact .failed _ op todo calls call _ e undone failure rfl hdone
                htried hundoing
          | ok applied =>
              obtain ⟨releasing, released, later, rfl, hrelease, hlater⟩ :=
                runs_bind.mp hrest
              have hunwatched : releasing.filter watched = [] :=
                filter_watched_of_asks
                  (Plan.asks_releaseUnused needed op fun _ _ _ => rfl) hrelease
              have hcarried : Carried ⟨op, applied,
                  released⟩ (⟨.cancelled, false⟩ :: call) :=
                ⟨call, rfl, htried⟩
              have hall :
                  List.Forall₂ Carried (latest.reverse ++ [⟨op, applied, released⟩])
                    (calls ++ [⟨.cancelled, false⟩ :: call]) :=
                List.rel_append hdone (.cons hcarried .nil)
              rw [← List.reverse_cons] at hall
              have haccounted := ih hall hlater
              rw [List.reverse_cons, List.map_append, List.append_assoc,
                List.flatten_append, List.append_assoc] at haccounted
              have hasked : List.filter watched [⟨.cancelled, false⟩] =
                [⟨.cancelled, false⟩] := rfl
              rw [List.filter_append, List.filter_append, List.filter_append,
                htried.watched, hunwatched, hasked]
              simpa using haccounted

/-! ## The outcome -/

def completed (plan : List Operation) : Except Halt Unit → List Operation
  | .ok () => plan
  | .error halt => halt.completed

def rulesOf (kind : OperationKind) (ops : List Operation) : List DesiredRule :=
  (ops.filter fun op => op.kind = kind).map Operation.rule

/-- **What an outcome adds up to.** -/
structure Tallied (plan : List Operation) (result : Except Halt Unit)
    (o : PlanOutcome) : Prop where
  order : completed plan result <+: plan
  created : o.created = rulesOf .create (completed plan result)
  updated : o.updated = rulesOf .update (completed plan result)
  deleted : o.deleted = rulesOf .delete (completed plan result)
  total : o.applied + o.failures.length + o.skipped = plan.length
  failures : o.failures.length ≤ 1
  success : result = .ok () ↔ o.isSuccess = true
  /-- What is undone are the latest operations, without a gap. -/
  rolledBack : o.rolledBack <+: (completed plan result).reverse
  /-- The one that cannot be undone comes right after them. -/
  stuck : o.rollbackFailures = [] ∨ ∃ op e, o.rollbackFailures = [(op, e)] ∧
    o.rolledBack ++ [op] <+: (completed plan result).reverse
  halted : ∀ halt, result = .error halt →
    (o.rollbackFailures = [] → o.rolledBack = (completed plan result).reverse) ∧
    (halt.rollbackFailed = true ↔ o.rollbackFailures ≠ []) ∧
    (o.cancelled = true → halt.kind = .cancelled ∧ o.failures = []) ∧
    (o.cancelled = false → o.failures.length = 1 ∧
      halt.kind = if halt.rollbackFailed then .rollbackFailed else .failed)

theorem foldl_noted (ops : List Operation) (o : PlanOutcome) :
    ops.foldl PlanOutcome.noted o = { o with
      created := o.created ++ rulesOf .create ops
      updated := o.updated ++ rulesOf .update ops
      deleted := o.deleted ++ rulesOf .delete ops } := by
  induction ops generalizing o with
  | nil => simp [rulesOf]
  | cons op ops ih =>
      rw [List.foldl_cons, ih]
      cases hkind : op.kind <;> simp [PlanOutcome.noted, rulesOf, hkind]

theorem length_rulesOf (ops : List Operation) :
    (rulesOf .create ops).length + (rulesOf .update ops).length +
      (rulesOf .delete ops).length = ops.length := by
  induction ops with
  | nil => rfl
  | cons op ops ih =>
      cases hkind : op.kind <;>
        simp only [rulesOf, List.filter_cons, hkind, List.length_map] at ih ⊢ <;>
        simp <;> omega

theorem carriedOut_eq (ops : List Operation) :
    PlanOutcome.carriedOut ops = { PlanOutcome.empty with
      created := rulesOf .create ops
      updated := rulesOf .update ops
      deleted := rulesOf .delete ops } :=
  foldl_noted ops .empty

theorem applied_carriedOut (ops : List Operation) :
    (PlanOutcome.carriedOut ops).applied = ops.length := by
  rw [carriedOut_eq]
  exact length_rulesOf ops

/-- All operations were undone, or those before the one that could not be. -/
def Reverts (ops undone : List Operation) : Option (Operation × RouterError) → Prop
  | none => undone = ops
  | some (op, _) => undone ++ [op] <+: ops

theorem RolledBack.reverts {undone : List Operation}
    {failure : Option (Operation × RouterError)}
    (h : RolledBack latest log undone failure) :
    Reverts (latest.map Completed.operation) undone failure := by
  cases h with
  | nothing hnone => exact hnone ▸ rfl
  | looked listing log undone failure hsome hunwound =>
      cases hunwound with
      | all calls hundone => rfl
      | stuck undone c earlier calls last e hlatest hundone hstuck =>
          show undone.map Completed.operation ++
            [c.operation] <+: latest.map Completed.operation
          rw [hlatest, List.map_append, List.map_cons]
          exact ⟨earlier.map Completed.operation, by simp⟩

theorem Reverts.isPrefix {ops undone : List Operation}
    {failure : Option (Operation × RouterError)}
    (h : Reverts ops undone failure) : undone <+: ops := by
  cases failure with
  | none => exact h ▸ List.prefix_refl _
  | some f => exact (List.prefix_append undone [f.1]).trans h

theorem outcome_of_halt (halt : Halt) : halt.outcome =
    { created := rulesOf .create halt.completed
      updated := rulesOf .update halt.completed
      deleted := rulesOf .delete halt.completed
      failures := halt.failure?.toList
      rolledBack := halt.rolledBack
      rollbackFailures := halt.rollbackFailure.toList
      skipped := halt.skipped
      cancelled := halt.isCancelled } := by
  unfold Halt.outcome
  rw [carriedOut_eq]

theorem tallied_ok (plan : List Operation) :
    Tallied plan (.ok ()) (PlanOutcome.of plan (.ok ())) := by
  show Tallied plan (.ok ()) (PlanOutcome.carriedOut plan)
  have htotal := applied_carriedOut plan
  rw [carriedOut_eq] at htotal ⊢
  constructor
  case order => exact List.prefix_refl _
  case created | updated | deleted => rfl
  case total => exact htotal
  case failures => exact Nat.zero_le _
  case success => exact iff_of_true rfl rfl
  case rolledBack => exact List.nil_prefix
  case stuck => exact Or.inl rfl
  case halted => exact fun halt h => absurd h (by simp)

/-- A plan that halted after a part of it, which was undone as far as possible. -/
theorem tallied_error {halt : Halt} (horder : halt.completed <+: plan)
    (hskipped : halt.completed.length + halt.failure?.toList.length +
      halt.skipped = plan.length)
    (hreverts :
      Reverts halt.completed.reverse halt.rolledBack halt.rollbackFailure) :
    Tallied plan (.error halt) (PlanOutcome.of plan (.error halt)) := by
  show Tallied plan (.error halt) halt.outcome
  have htotal := length_rulesOf halt.completed
  rw [outcome_of_halt]
  constructor
  case order => exact horder
  case created | updated | deleted => rfl
  case total =>
    show (_ + _ + _) + halt.failure?.toList.length + halt.skipped = plan.length
    rw [htotal]
    exact hskipped
  case failures => exact Option.length_toList_le
  case success =>
    refine iff_of_false (by simp) ?_
    cases hcause : halt.cause <;> simp [PlanOutcome.isSuccess, Halt.failure?,
      Halt.isCancelled, hcause]
  case rolledBack => exact hreverts.isPrefix
  case stuck =>
    cases hfailure : halt.rollbackFailure with
    | none => exact Or.inl rfl
    | some f =>
        rw [hfailure] at hreverts
        exact Or.inr ⟨f.1, f.2, rfl, hreverts⟩
  case halted =>
    intro halt' heq
    obtain rfl := Except.error.inj heq
    refine ⟨fun hnone => ?_, ?_, fun hcancelled => ?_, fun hfailed => ?_⟩
    · rw [Option.toList_eq_nil_iff.mp hnone] at hreverts
      exact hreverts
    · cases hfailure : halt.rollbackFailure <;> simp [Halt.rollbackFailed, hfailure]
    · cases hcause : halt.cause with
      | cancelled => simp [Halt.kind, Halt.failure?, hcause]
      | failed op e => simp [Halt.isCancelled, hcause] at hcancelled
    · cases hcause : halt.cause with
      | cancelled => simp [Halt.isCancelled, hcause] at hfailed
      | failed op e => simp [Halt.kind, Halt.failure?, hcause]

theorem Accounted.tallied {result : Except Halt Unit}
    (h : Accounted plan log result) :
    Tallied plan result (PlanOutcome.of plan result) := by
  cases h with
  | finished done calls hplan hdone => exact tallied_ok plan
  | failed done op later calls call undoing e undone failure hplan hdone
      hfailed hundoing =>
      have hreverts := hundoing.reverts
      rw [List.map_reverse] at hreverts
      refine tallied_error (hplan ▸ List.prefix_append _ _) ?_ hreverts
      simp [hplan, Halt.failure?]
      omega
  | cancelled done later calls undoing undone failure hplan hlater hdone hundoing =>
      have hreverts := hundoing.reverts
      rw [List.map_reverse] at hreverts
      refine tallied_error (hplan ▸ List.prefix_append _ _) ?_ hreverts
      simp [hplan, Halt.failure?]

end PortForwarding.Account

namespace PortForwarding.Plan

open Account Script

/-- **A plan is carried out fail-fast and accounted for**, whatever the router
answers and whenever the signal to stop is given. -/
theorem execute_accounted {plan : List Operation} {log : List Exchange}
    {result : Except Halt Unit} (h : Runs (execute plan).run log result) :
    Accounted plan (log.filter watched) result ∧
      Tallied plan result (PlanOutcome.of plan result) :=
  have hnone : List.Forall₂ Carried ([] : List Completed).reverse [] := .nil
  have haccounted : Accounted plan (log.filter watched) result :=
    accounted_of_runs hnone h
  ⟨haccounted, haccounted.tallied⟩

end PortForwarding.Plan

/-! ## A rule that stays -/

namespace PortForwarding.Sample

open Script

def stayingLog : List Exchange :=
  [⟨.cancelled, false⟩, ⟨.router (.add createHttp.rule.spec), .ok http⟩,
    ⟨.cancelled, false⟩, ⟨.router (.add createHttps.rule.spec), .error (.api 500 "down")⟩,
    ⟨.router .list, .ok [http]⟩, ⟨.router (.remove http.id), .error (.api 503 "")⟩]

end PortForwarding.Sample

namespace PortForwarding.Plan

open Account PortForwarding.Sample Script

theorem execute_accounted_sample :
    let plan := [createHttp, createHttps]
    let result := .error (halted (some (.api 503 "")))
    Accounted plan stayingLog result ∧
        Tallied plan result (PlanOutcome.of plan result) := by
  have hruns : Runs (execute [createHttp, createHttps]).run stayingLog
      (.error (halted (some (.api 503 "")))) :=
    .ask (.ask (.ask (.ask (.ask (.ask (.done _))))))
  exact execute_accounted hruns

end PortForwarding.Plan
