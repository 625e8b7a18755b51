import PortForwarding.Desired
import PortForwarding.Plan.Operation
import PortForwarding.Script

/-! # Carrying out a plan

The operations of a plan are carried out one after another. The first failure, or
a signal to stop between two operations, halts the plan, and what was done before
is undone, the latest operation first (`Completed.compensation`):

- a created rule is removed, unless it is gone already;
- an updated rule is written as it was, or made again if it is gone;
- a deleted rule is made again.

Where the rules are is looked up once, before anything is undone. If something
cannot be undone, the rest stays as it is and the `Halt` says so.

The reservation of a deleted rule's port is given back at once and taken again
when the deletion is undone.
-/

namespace PortForwarding

/-! ## How a plan ends early -/

/-- Why a plan halted. -/
inductive HaltCause where
  | failed (operation : Operation) (error : RouterError)
  | cancelled
  deriving DecidableEq, Repr

/-- How a plan ended that was not carried out to its end. -/
structure Halt where
  cause : HaltCause
  /-- The operations that were carried out, in order. -/
  completed : List Operation
  /-- The number of operations that were never tried. -/
  skipped : Nat
  /-- The operations that were undone, in the order of undoing. -/
  rolledBack : List Operation
  /-- The operation that could not be undone, and why. -/
  rollbackFailure : Option (Operation × RouterError)
  deriving DecidableEq, Repr

namespace Halt

/-- The operation that failed, and why. -/
def failure? (h : Halt) : Option (Operation × RouterError) :=
  match h.cause with
  | .failed op e => some (op, e)
  | .cancelled => none

/-- Whether the plan was halted from outside. -/
def isCancelled (h : Halt) : Bool :=
  h.cause == .cancelled

/-- Whether the router may be left with part of the plan. -/
def rollbackFailed (h : Halt) : Bool :=
  h.rollbackFailure.isSome

/-- Whether the plan may succeed when it is tried again. -/
def isTransient (h : Halt) : Bool :=
  match h.cause with
  | .failed _ e => e.isTransient
  | .cancelled => true

def message (h : Halt) : String :=
  match h.cause, h.rollbackFailure with
  | .cancelled, _ =>
    "pass cancelled with " ++ Text.showNat h.skipped ++ " operation(s) not started"
  | .failed op e, none => op.describe ++ " failed: " ++ e.message
  | .failed op e, some (undone, why) =>
    op.describe ++ " failed: " ++ e.message ++ "; rollback failed: " ++
      undone.describe ++ ": "
      ++ why.message

end Halt

/-! ## Completed operations -/

/-- An operation that was carried out, with what it takes to undo it. -/
structure Completed where
  operation : Operation
  /-- The rule as the router has it now; for a deletion, the rule that went. -/
  applied : RouterRule
  /-- The port whose reservation went with a deleted rule. -/
  released : Option UInt16
  deriving DecidableEq, Repr, Inhabited

/-- What undoes an operation. -/
inductive Compensation where
  | remove (id : String)
  | restore (id : String) (spec : RuleSpec)
  | recreate (spec : RuleSpec)
  | nothing
  deriving DecidableEq, Repr

namespace Completed

/-- Whether a listing shows a rule. Without a listing every rule is taken to
be there. -/
def isPresent (listing : Option (List RouterRule)) (id : String) : Bool :=
  match listing with
  | none => true
  | some rules => rules.any fun r => r.id == id

/-- What undoes an operation, going by a listing of the router. -/
def compensation (listing : Option (List RouterRule)) (c : Completed) :
    Compensation :=
  match c.operation.kind, c.operation.existing with
  | .create, _ =>
      if isPresent listing c.applied.id then .remove c.applied.id else .nothing
  | .update, some before =>
    if isPresent listing before.id then .restore before.id before.spec
    else .recreate before.spec
  | .delete, some before => .recreate before.spec
  | _, none => .recreate c.applied.spec

end Completed

open Script

namespace Compensation

/-- A rule that should be removed is. One that is gone is as good as removed. -/
def ensureRemoved (id : String) : ExceptT RouterError Script Unit :=
  ExceptT.mk do
    match ← (removeRule id).run with
    | .error (.notFound _) => return .ok ()
    | reply => return reply

/-- A rule is written as it was, and made again if it has gone in the meantime. -/
def restored (id : String) (spec : RuleSpec) :
    ExceptT RouterError Script RouterRule :=
  ExceptT.mk do
    match ← (updateRule id spec).run with
    | .error (.notFound _) => (addRule spec).run
    | reply => return reply

def carryOut : Compensation → ExceptT RouterError Script Unit
  | .remove id => ensureRemoved id
  | .restore id spec => do let _ ← restored id spec
  | .recreate spec => do let _ ← addRule spec
  | .nothing => return

end Compensation

/-! ## Undoing -/

namespace Completed

/-- The reservation that went with a deleted rule is taken again. If another
Service has taken it, it is lost. -/
def reclaim (c : Completed) : Script Unit := do
  match c.released with
  | some port => let _ ← memory (.claim c.operation.rule.owner.key [port])
  | none => return

/-- Completed operations, the latest first, are undone as far as possible: those
that were, and the first that could not be. -/
def undoAll (listing : Option (List RouterRule)) :
    List Completed → Script (List Operation × Option (Operation × RouterError))
  | [] => return ([], none)
  | c :: cs => do
    match ← (c.compensation listing).carryOut.run with
    | .error e => return ([], some (c.operation, e))
    | .ok () =>
      c.reclaim
      let (undone, failure) ← undoAll listing cs
      return (c.operation :: undone, failure)

/-- Completed operations, the latest first, are undone after one look at
the router. -/
def rollback (cs : List Completed) :
    Script (List Operation × Option (Operation × RouterError)) := do
  if cs.isEmpty then return ([], none)
  let listing ← listRules.run
  undoAll listing.toOption cs

/-- The plan halts after the operations `cs`, the latest first. -/
def halt (cs : List Completed) (cause : HaltCause) (skipped : Nat) : Script Halt := do
  let (rolledBack, rollbackFailure) ← rollback cs
  return {
    cause := cause
    completed := cs.reverse.map Completed.operation
    skipped := skipped
    rolledBack := rolledBack
    rollbackFailure := rollbackFailure }

end Completed

/-! ## Carrying out -/

namespace Plan

/-- One operation is carried out: the rule as the router has it then. -/
def attempt (op : Operation) : ExceptT RouterError Script RouterRule := do
  match op.kind, op.existing with
  | .create, _ => addRule op.rule.spec
  | .update, some e => updateRule e.id op.rule.spec
  | .delete, some e =>
    removeRule e.id
    return e
  | kind, none =>
    throw (.invalidResponse (kind.text ++ " of " ++ op.rule.spec.name ++
      " has no target rule"))

/-- The external ports of the rules that a plan creates or updates. -/
def targetedPorts (plan : List Operation) : List UInt16 :=
  (plan.filter fun op => op.kind != .delete).map fun op => op.slot.external

/-- The port of a deleted rule is given back, unless the plan still needs it or it
was not reserved: the port, if it was given back. -/
def releaseUnused (needed : List UInt16) (op : Operation) :
    Script (Option UInt16) := do
  if op.kind ≠ .delete ∨ needed.contains op.slot.external then return none
  if ← memory (.release op.rule.owner.key op.slot.external) then
    return some op.slot.external
  return none

/-- Operations are carried out after the operations `done`, the latest first. -/
def executeAfter (needed : List UInt16) (done : List Completed) :
    List Operation → ExceptT Halt Script Unit
  | [] => return
  | op :: ops => ExceptT.mk do
    if ← isCancelled then
      return .error (← Completed.halt done .cancelled (ops.length + 1))
    match ← (attempt op).run with
    | .error e => return .error (← Completed.halt done (.failed op e) ops.length)
    | .ok applied =>
      let released ← releaseUnused needed op
      (executeAfter needed (⟨op, applied, released⟩ :: done) ops).run

/-- A plan is carried out to its end, or as if nothing had happened. -/
def execute (plan : List Operation) : ExceptT Halt Script Unit :=
  executeAfter (targetedPorts plan) [] plan

end Plan

end PortForwarding
