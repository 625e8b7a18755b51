import PortForwarding.Desired
import PortForwarding.Plan.Operation

/-! # Drift

What has come apart between the rules that a Service wants and the router, found by
going through the wanted rules in order (`Drift.matchAll`):

1. an owned rule on the same slot matches, and is wrong if anything differs;
2. otherwise a rule of another on the slot is wrong and will be taken over;
3. otherwise an owned rule for the same port on another slot has moved and is wrong;
4. otherwise the rule is missing.

Each owned rule matches once; those that match nothing are extra.
-/

namespace PortForwarding

/-- A wanted rule and the rule on the router that is not as it should be. -/
structure WrongRule where
  desired : DesiredRule
  current : RouterRule
  mismatches : List Mismatch
  deriving DecidableEq, Repr, Inhabited

namespace WrongRule

/-- A wanted rule against the rule on the router. -/
def of (desired : DesiredRule) (current : RouterRule) : WrongRule :=
  ⟨desired, current, PortForwarding.mismatches desired current⟩

/-- Only a deletion and a creation can mend it. -/
def isRisky (w : WrongRule) : Bool :=
  w.mismatches.any Mismatch.isRisky

/-- It belongs to somebody else. -/
def isTakeover (w : WrongRule) : Bool :=
  w.mismatches.contains .ownership

def correction (w : WrongRule) : List Operation :=
  if w.isRisky then
    (Operation.deleteOwned? w.current .driftWrongRisky).toList
      ++ [.create w.desired .driftWrongRisky]
  else
    [.update w.desired w.current
      (if w.isTakeover then .ownershipTakeover else .driftWrongSafe) w.mismatches]

end WrongRule

/-- What has come apart for one Service. -/
structure Drift where
  service : ServiceKey
  reference : ObjectReference
  desired : List DesiredRule
  owned : List RouterRule
  missing : List DesiredRule
  wrong : List WrongRule
  extra : List RouterRule
  deriving DecidableEq, Repr, Inhabited

namespace Drift

/-! ## Matching -/

/-- What became of one wanted rule. -/
inductive Verdict where
  | right
  | missing
  | wrong (w : WrongRule)

/-- The verdict on a wanted rule, and the owned rules that nothing has
matched yet. -/
def matchRule (key : ServiceKey) (rules free : List RouterRule) (rule : DesiredRule) :
    Verdict × List RouterRule :=
  match free.find? fun r => r.slot == rule.slot with
  | some same =>
    (if (mismatches rule same).isEmpty then .right else .wrong (.of rule same),
      free.filter fun r => decide (r.id ≠ same.id))
  | none =>
    match rules.find? fun r => r.slot == rule.slot && !r.isOwnedBy key with
    | some foreign => (.wrong (.of rule foreign), free)
    | none =>
      match free.find? fun r => r.owner? == some rule.owner with
      | some moved =>
          (.wrong (.of rule moved), free.filter fun r => decide (r.id ≠ moved.id))
      | none => (.missing, free)

/-- The verdicts on the wanted rules in order, and the owned rules left over. -/
def matchAll (key : ServiceKey) (rules : List RouterRule) :
    List RouterRule → List DesiredRule →
      List (DesiredRule × Verdict) × List RouterRule
  | free, [] => ([], free)
  | free, rule :: rest =>
    let (verdict, free) := matchRule key rules free rule
    let (verdicts, free) := matchAll key rules free rest
    ((rule, verdict) :: verdicts, free)

/-- The wanted rules that a listing differs in, for one Service. -/
def compare (key : ServiceKey) (reference : ObjectReference)
    (desired : List DesiredRule) (rules : List RouterRule) : Drift :=
  let owned := ownedRules key rules
  let (verdicts, extra) := matchAll key rules owned desired
  { service := key
    reference := reference
    desired := desired
    owned := owned
    missing := verdicts.filterMap fun (rule, v) =>
      match v with
      | .missing => some rule
      | _ => none
    wrong := verdicts.filterMap fun (_, v) =>
      match v with
      | .wrong w => some w
      | _ => none
    extra := extra }

/-- The drift of a Service against a listing, with its external ports reserved. -/
def analyze (reservations : Reservations) (view : ServiceView)
    (defaults : RuleDefaults) (rules : List RouterRule) :
    Except DesiredError (Drift × Reservations) := do
  let (desired, reservations) ← Desired.calculate reservations view defaults
  return (compare view.key view.reference desired rules, reservations)

/-! ## What follows -/

def any (d : Drift) : Bool :=
  !(d.missing.isEmpty && d.wrong.isEmpty && d.extra.isEmpty)

/-- The operations that mend everything, in order of execution. -/
def correctionPlan (d : Drift) : List Operation :=
  Operation.sequence
    (d.wrong.flatMap WrongRule.correction
      ++ d.missing.map (Operation.create · .driftMissing)
      ++ d.extra.filterMap (Operation.deleteOwned? · .driftExtra))

def summary (d : Drift) : Json :=
  .obj [
    ("service", .str d.service.text),
    ("missing", .texts (d.missing.map fun r => r.spec.name)),
    ("wrong", .arr (d.wrong.map fun w => .obj [
      ("name", .str w.desired.spec.name),
      ("rule_id", .str w.current.id),
      ("current_name", .str w.current.spec.name),
      ("mismatches", .texts (w.mismatches.map Mismatch.text)),
      ("risky", .bool w.isRisky)])),
    ("extra", .arr (d.extra.map fun r => .obj [
      ("name", .str r.spec.name),
      ("rule_id", .str r.id)]))]

end Drift

end PortForwarding
