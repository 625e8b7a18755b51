import PortForwarding.Plan.Execution

/-! # What became of a plan

Whoever has a plan carried out is given an account of it: the rules that were
created, updated and deleted, the operation that failed, what was undone and what
could not be, and how many operations were never tried. It comes with the kind of
the halt if the plan halted (`Halt.kind`).
-/

namespace PortForwarding

structure PlanOutcome where
  created : List DesiredRule
  updated : List DesiredRule
  deleted : List DesiredRule
  failures : List (Operation × RouterError)
  /-- The operations that were undone, in the order of undoing. -/
  rolledBack : List Operation
  rollbackFailures : List (Operation × RouterError)
  /-- The number of operations that were never tried. -/
  skipped : Nat
  cancelled : Bool
  deriving DecidableEq, Repr

namespace PlanOutcome

/-- Nothing has been done yet. -/
def empty : PlanOutcome :=
  ⟨[], [], [], [], [], [], 0, false⟩

/-- One more operation was carried out. -/
def noted (o : PlanOutcome) (op : Operation) : PlanOutcome :=
  match op.kind with
  | .create => { o with created := o.created ++ [op.rule] }
  | .update => { o with updated := o.updated ++ [op.rule] }
  | .delete => { o with deleted := o.deleted ++ [op.rule] }

/-- These operations were carried out, in order. -/
def carriedOut (ops : List Operation) : PlanOutcome :=
  ops.foldl noted empty

/-- The number of operations that were carried out. -/
def applied (o : PlanOutcome) : Nat :=
  o.created.length + o.updated.length + o.deleted.length

def isSuccess (o : PlanOutcome) : Bool :=
  o.failures.isEmpty && !o.cancelled

end PlanOutcome

/-- The kinds of halts. -/
inductive HaltKind where
  | failed
  /-- An operation failed, and so did the undoing of those before it. -/
  | rollbackFailed
  | cancelled
  deriving DecidableEq, Repr

def HaltKind.text : HaltKind → String
  | .failed => "Failed"
  | .rollbackFailed => "RollbackFailed"
  | .cancelled => "Cancelled"

namespace Halt

def kind (h : Halt) : HaltKind :=
  match h.cause with
  | .cancelled => .cancelled
  | .failed _ _ => if h.rollbackFailed then .rollbackFailed else .failed

/-- The outcome of a plan that halted. -/
def outcome (h : Halt) : PlanOutcome :=
  { PlanOutcome.carriedOut h.completed with
    failures := h.failure?.toList
    rolledBack := h.rolledBack
    rollbackFailures := h.rollbackFailure.toList
    skipped := h.skipped
    cancelled := h.isCancelled }

end Halt

/-- The outcome of a plan, by the result of carrying it out. -/
def PlanOutcome.of (plan : List Operation) : Except Halt Unit → PlanOutcome
  | .ok () => PlanOutcome.carriedOut plan
  | .error halt => halt.outcome

end PortForwarding
