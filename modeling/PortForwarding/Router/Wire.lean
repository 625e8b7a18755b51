import PortForwarding.Address.Reader
import PortForwarding.Json.Row
import PortForwarding.Router.Error
import PortForwarding.Rule
import PortForwarding.Service.View
import PortForwarding.Text.Quoted

/-! # Rules on the wire

The router writes a rule as a JSON object whose ports and address are text.
`WireRule.ofSpec` is what is sent for a rule, `WireRule.toRule` what is made of a
rule that was received. A reply wraps rules in an envelope that says whether the
call went well.
-/

namespace PortForwarding

open Json

/-- A rule as the router writes it. -/
structure WireRule where
  id : Option String
  name : String
  enabled : Bool
  interface : String
  source : String
  externalPort : String
  destination : String
  internalPort : String
  protocol : String
  log : Bool
  deriving DecidableEq, Repr, Inhabited

namespace WireRule

/-- What is sent for a rule. Any source is written out. -/
def ofSpec (spec : RuleSpec) : WireRule :=
  { id := none
    name := spec.name
    enabled := spec.enabled
    interface := spec.interface
    source := spec.source.getD "any"
    externalPort := Text.showNat spec.slot.external.toNat
    destination := spec.destination.text
    internalPort := Text.showNat spec.slot.internal.toNat
    protocol := spec.slot.protocol.text
    log := false }

/-- A rule as JSON, without an identifier it does not have. -/
def toJson (r : WireRule) : Json :=
  .obj ((r.id.map fun id => ("_id", Json.str id)).toList ++ [
    ("name", .str r.name),
    ("enabled", .bool r.enabled),
    ("pfwd_interface", .str r.interface),
    ("src", .str r.source),
    ("dst_port", .str r.externalPort),
    ("fwd", .str r.destination),
    ("fwd_port", .str r.internalPort),
    ("proto", .str r.protocol),
    ("log", .bool r.log)])

def ofJson (j : Json) : Option WireRule :=
  match j.row ["_id", "name", "enabled", "pfwd_interface", "src", "dst_port",
    "fwd", "fwd_port", "proto", "log"] with
  | some [id, name, enabled, interface, source, external, destination, internal,
      protocol, log] => do
    return {
      id := ← optional text? id
      name := ← required text? name
      enabled := ← defaulted false bool? enabled
      interface := ← defaulted "wan" text? interface
      source := ← defaulted "any" text? source
      externalPort := ← required text? external
      destination := ← required text? destination
      internalPort := ← required text? internal
      protocol := ← required text? protocol
      log := ← defaulted false bool? log }
  | _ => none

def invalid (r : WireRule) (field value : String) : String :=
  "rule " ++ Text.quoted r.name ++ ": invalid " ++ field ++ " " ++ Text.quoted value

/-- A value, or the complaint about its absence. -/
def orComplain {α : Type} (complaint : String) : Option α → Except String α
  | some a => .ok a
  | none => .error complaint

/-- The rule that a received one stands for, or the first complaint about it. -/
def toRule (r : WireRule) : Except String RouterRule := do
  let id ← orComplain ("rule " ++ Text.quoted r.name ++ " has no _id") r.id
  let external ← orComplain (r.invalid "dst_port" r.externalPort)
    (Text.readWord r.externalPort)
  let internal ← orComplain (r.invalid "fwd_port" r.internalPort)
    (Text.readWord r.internalPort)
  let destination ← orComplain (r.invalid "fwd" r.destination)
    (Address.parse r.destination)
  let protocol ← orComplain (r.invalid "proto" r.protocol) (Protocol.parse r.protocol)
  return {
    id := id
    spec := {
      name := r.name
      slot := ⟨external, internal, protocol⟩
      destination := destination
      enabled := r.enabled
      interface := r.interface
      source := ServiceView.restriction? r.source } }

/-- The rules among those received; the others, which the operator never makes, are
passed over. -/
def listed (rs : List WireRule) : List RouterRule :=
  rs.filterMap fun r => r.toRule.toOption

end WireRule

/-! ## Envelopes -/

/-- A reply: how the call went, and the rules it concerns. -/
structure Envelope where
  code : String
  message : Option String
  rules : List WireRule
  deriving DecidableEq, Repr, Inhabited

namespace Envelope

/-- The code and the message in a reply's head. -/
def headOfJson (j : Json) : Option (String × Option String) :=
  match j.row ["rc", "msg"] with
  | some [code, message] => do
    return (← required text? code, ← optional text? message)
  | _ => none

def ofJson (j : Json) : Option Envelope :=
  match j.row ["meta", "data"] with
  | some [head, data] => do
    let (code, message) ← required headOfJson head
    return ⟨code, message, ← defaulted [] (listOf? WireRule.ofJson) data⟩
  | _ => none

end Envelope

end PortForwarding
