import PortForwarding.Json.Row
import PortForwarding.Rule

/-! # Operations

One change to the router: a rule is created, an existing one overwritten, or an
existing one deleted. A plan is a list of operations; `Operation.sequence` puts it
into the order in which it is carried out, deletions first and creations last, so
that a slot is free before a rule is created on it.

`Operation.apply` says what an operation does to the rules of a router that is at
rest.
-/

namespace PortForwarding

/-- What an operation does, in order of execution. -/
inductive OperationKind where
  | delete
  | update
  | create
  deriving DecidableEq, Repr, Inhabited

namespace OperationKind

def text : OperationKind → String
  | .delete => "delete"
  | .update => "update"
  | .create => "create"

/-- The place of a kind in the order of execution. -/
def rank : OperationKind → Nat
  | .delete => 0
  | .update => 1
  | .create => 2

def all : List OperationKind :=
  [.delete, .update, .create]

end OperationKind

/-- Why an operation is planned. -/
inductive Reason where
  | portNoLongerDesired
  | portNotYetExists
  | configurationMismatchSafe
  | ownershipTakeover
  | driftMissing
  | driftExtra
  | driftWrongSafe
  | driftWrongRisky
  deriving DecidableEq, Repr, Inhabited

namespace Reason

def text : Reason → String
  | .portNoLongerDesired => "port_no_longer_desired"
  | .portNotYetExists => "port_not_yet_exists"
  | .configurationMismatchSafe => "configuration_mismatch_safe"
  | .ownershipTakeover => "ownership_takeover"
  | .driftMissing => "drift_missing"
  | .driftExtra => "drift_extra"
  | .driftWrongSafe => "drift_wrong_safe"
  | .driftWrongRisky => "drift_wrong_risky"

def all : List Reason :=
  [.portNoLongerDesired, .portNotYetExists, .configurationMismatchSafe,
    .ownershipTakeover, .driftMissing, .driftExtra, .driftWrongSafe,
    .driftWrongRisky]

end Reason

/-- One planned change to the router. -/
structure Operation where
  kind : OperationKind
  /-- The rule as it will be; for a deletion, the rule that goes. -/
  rule : DesiredRule
  /-- The rule on the router that is overwritten or deleted. -/
  existing : Option RouterRule
  reason : Reason
  mismatches : List Mismatch
  deriving DecidableEq, Repr, Inhabited

namespace Operation

def create (rule : DesiredRule) (reason : Reason) : Operation :=
  ⟨.create, rule, none, reason, []⟩

def update (rule : DesiredRule) (existing : RouterRule) (reason : Reason)
    (mismatches : List Mismatch) : Operation :=
  ⟨.update, rule, some existing, reason, mismatches⟩

def delete (rule : DesiredRule) (existing : RouterRule) (reason : Reason) :
    Operation :=
  ⟨.delete, rule, some existing, reason, []⟩

/-- The deletion of an owned rule; none for a rule that nobody owns. -/
def deleteOwned? (r : RouterRule) (reason : Reason) : Option Operation :=
  (DesiredRule.ofRouterRule? r).map fun rule => delete rule r reason

def slot (op : Operation) : Slot :=
  op.rule.slot

/-- A short description for messages. -/
def describe (op : Operation) : String :=
  op.kind.text ++ " " ++ op.rule.spec.name ++ " (" ++ op.slot.text ++ ")"

/-! ## The order of execution -/

/-- Whether `a` may run before `b`: by kind, then by slot. -/
def before (a b : Operation) : Bool :=
  ((Ord.compare a.kind.rank b.kind.rank).then (a.slot.compare b.slot)).isLE

/-- The operations in order of execution; equals keep their order. -/
def sequence (ops : List Operation) : List Operation :=
  ops.mergeSort before

/-! ## What operations do -/

/-- The rules of a router after an operation. A created rule gets the identifier
`id` and the last place. -/
def apply (id : String) (rules : List RouterRule) (op : Operation) :
    List RouterRule :=
  match op.kind, op.existing with
  | .create, _ => rules ++ [⟨id, op.rule.spec⟩]
  | .update, some e =>
      rules.map fun r =>
        if r.id = e.id then { r with spec := op.rule.spec } else r
  | .delete, some e => rules.filter fun r => decide (r.id ≠ e.id)
  | _, none => rules

/-- The rules of a router after the operations of a plan, in order. The rule
created by the `n`-th of them, counted from `start`, gets the identifier
`fresh n`. -/
def applyAll (fresh : Nat → String) (start : Nat) (rules : List RouterRule) :
    List Operation → List RouterRule
  | [] => rules
  | op :: ops => applyAll fresh (start + 1) (op.apply (fresh start) rules) ops

end Operation

/-! ## Summaries -/

/-- What events and records keep of an operation. -/
structure OperationSummary where
  kind : OperationKind
  name : String
  externalPort : UInt16
  internalPort : UInt16
  protocol : String
  destination : String
  reason : Reason
  existingId : Option String
  mismatches : List Mismatch
  deriving DecidableEq, Repr, Inhabited

def Operation.summary (op : Operation) : OperationSummary :=
  { kind := op.kind
    name := op.rule.spec.name
    externalPort := op.slot.external
    internalPort := op.slot.internal
    protocol := op.slot.protocol.text
    destination := op.rule.spec.destination.text
    reason := op.reason
    existingId := op.existing.map RouterRule.id
    mismatches := op.mismatches }

namespace OperationSummary

open Json

/-- A summary as JSON. What is absent or empty at the end is left out. -/
def toJson (s : OperationSummary) : Json :=
  .obj ([
    ("kind", .str s.kind.text),
    ("name", .str s.name),
    ("external_port", .nat s.externalPort.toNat),
    ("internal_port", .nat s.internalPort.toNat),
    ("protocol", .str s.protocol),
    ("destination", .str s.destination),
    ("reason", .str s.reason.text)]
    ++ (s.existingId.map fun id => ("existing_id", Json.str id)).toList
    ++ if s.mismatches.isEmpty then []
      else [("mismatches", .texts (s.mismatches.map Mismatch.text))])

def ofJson (j : Json) : Option OperationSummary :=
  match j.row ["kind", "name", "external_port", "internal_port", "protocol",
    "destination", "reason", "existing_id", "mismatches"] with
  | some [kind, name, external, internal, protocol, destination, reason, existing,
      mismatches] => do
    return {
      kind := ← required (caseOf? OperationKind.text OperationKind.all) kind
      name := ← required text? name
      externalPort := ← required word16? external
      internalPort := ← required word16? internal
      protocol := ← required text? protocol
      destination := ← required text? destination
      reason := ← required (caseOf? Reason.text Reason.all) reason
      existingId := ← optional text? existing
      mismatches :=
        ← defaulted [] (listOf? (caseOf? Mismatch.text Mismatch.all)) mismatches }
  | _ => none

end OperationSummary

end PortForwarding
