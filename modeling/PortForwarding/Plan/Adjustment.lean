import PortForwarding.Plan.Operation

/-! # The plan after a change to a Service

A change to one Service is answered in two parts. `Adjustment.compute` compares
the rules that the Service owns with the ones it wants, slot by slot: an owned
rule on a slot that is not wanted goes, a wanted rule on a slot that is not owned
comes, and one that is there already is overwritten if anything differs.
`Takeover.detect` finds the wanted slots that are taken by rules of others, which
are overwritten and so change hands.

Between the detection and the execution the router is listed again;
`Takeover.revalidate` keeps what still holds. `planFor` joins the two parts.
-/

namespace PortForwarding

/-! ## Rules owned against rules wanted -/

namespace Adjustment

/-- The rules that share their slot with an earlier one. -/
def duplicates : List Slot → List RouterRule → List RouterRule
  | _, [] => []
  | seen, r :: rs =>
    if seen.contains r.slot then r :: duplicates seen rs
    else duplicates (r.slot :: seen) rs

/-- The first rule on each slot. -/
def firsts : List Slot → List RouterRule → List RouterRule
  | _, [] => []
  | seen, r :: rs =>
    if seen.contains r.slot then firsts seen rs else r :: firsts (r.slot :: seen) rs

/-- The last wanted rule on each slot. -/
def wantedBySlot : List DesiredRule → List DesiredRule
  | [] => []
  | r :: rs =>
      if rs.any (fun s => s.slot == r.slot) then wantedBySlot rs
      else r :: wantedBySlot rs

/-- The step that brings a wanted rule about. Slots in `claimed` are taken over by
another step. -/
def step? (current : List RouterRule) (claimed : List Slot) (rule : DesiredRule) :
    Option Operation :=
  match current.find? fun r => r.slot == rule.slot with
  | some existing =>
    let ms := mismatches rule existing
    if ms.isEmpty then none
    else some (.update rule existing .configurationMismatchSafe ms)
  | none =>
      if claimed.contains rule.slot then none
      else some (.create rule .portNotYetExists)

/-- The steps from the rules that a Service owns to those that it wants. -/
def compute (owned : List RouterRule) (desired : List DesiredRule)
    (claimed : List Slot) : List Operation :=
  let current := (firsts [] owned).mergeSort fun r s => r.slot.le s.slot
  let wanted := (wantedBySlot desired).mergeSort fun r s => r.slot.le s.slot
  let stale := current.filter fun r => !wanted.any fun w => w.slot == r.slot
  (duplicates [] owned ++ stale).filterMap (Operation.deleteOwned? · .portNoLongerDesired)
    ++ wanted.filterMap (step? current claimed)

end Adjustment

/-! ## Rules of others on wanted slots -/

namespace Takeover

/-- The takeover of the slot of a wanted rule, if a rule of another is on it and
none of the Service's own. -/
def on? (key : ServiceKey) (rules : List RouterRule) (rule : DesiredRule) :
    Option Operation :=
  if (ownedRules key rules).any fun r => r.slot == rule.slot then none
  else
    (rules.find? fun r => r.slot == rule.slot && !r.isOwnedBy key).map fun foreign =>
      .update rule foreign .ownershipTakeover (mismatches rule foreign)

/-- The takeovers that a listing calls for, in the order of the wanted rules. -/
def detect (key : ServiceKey) (desired : List DesiredRule) (rules : List RouterRule) :
    List Operation :=
  desired.filterMap (on? key rules)

/-- Whether the rule to be taken over is still there and on its slot. -/
def stillThere (fresh : List RouterRule) (op : Operation) : Bool :=
  match op.existing with
  | some e => fresh.any fun r => r.id == e.id && r.slot == e.slot
  | none => false

/-- The takeovers whose target is still there in a new listing. -/
def revalidate (ops : List Operation) (fresh : List RouterRule) : List Operation :=
  ops.filter (stillThere fresh)

end Takeover

/-! ## The plan -/

/-- The plan for one Service against one listing, given takeovers that are valid
for it. -/
def planFor (key : ServiceKey) (desired : List DesiredRule) (rules : List RouterRule)
    (takeovers : List Operation) : List Operation :=
  Operation.sequence
    (takeovers ++ Adjustment.compute (ownedRules key rules) desired
      (takeovers.map Operation.slot))

end PortForwarding
