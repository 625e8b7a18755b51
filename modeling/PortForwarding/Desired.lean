import PortForwarding.Settings
import PortForwarding.Mapping
import PortForwarding.Reservations
import PortForwarding.Service.View

/-! # Desired rules

The rules that a Service wants: one for each token of its mapping, in order. A
token names a declared port; no name and no external port may come twice.
`Desired.rulesFor` works them out, `Desired.calculate` also reserves their
external ports.
-/

namespace PortForwarding

/-- Why a Service's wishes cannot be met. -/
inductive DesiredError where
  | mapping (error : MappingError)
  | unknownPort (port : String) (declared : List String)
  | duplicatePort (port : UInt16)
  | duplicateName (port : String)
  | unsupportedProtocol (port protocol : String)
  | noDestination
  | conflict (conflict : PortConflict)
  deriving DecidableEq, Repr

namespace DesiredError

/-- The message for wishes that cannot be met. -/
def message : DesiredError → String
  | .mapping e => e.message
  | .unknownPort port declared =>
    "port " ++ Text.quoted port ++ " is not declared on the Service (available: "
      ++ (if declared.isEmpty then "none" else String.intercalate ", " declared) ++ ")"
  | .duplicatePort port =>
    "external port " ++ Text.showNat port.toNat ++ " is mapped more than once"
  | .duplicateName port => "port " ++ Text.quoted port ++ " is mapped more than once"
  | .unsupportedProtocol port protocol =>
    "unsupported protocol " ++ protocol ++ " on port " ++ Text.quoted port
  | .noDestination => "Service has no resolved destination address"
  | .conflict c =>
    "port already claimed: external port " ++ Text.showNat c.port.toNat ++ " is used by "
      ++ c.holder.text

def isConflict : DesiredError → Bool
  | .conflict _ => true
  | _ => false

end DesiredError

namespace Desired

def rule (view : ServiceView) (defaults : RuleDefaults) (destination : Address)
    (declared : DeclaredPort) (external : UInt16) (protocol : Protocol) :
    DesiredRule :=
  let owner := Owner.of view.key declared.name
  { owner := owner
    spec := {
      name := owner.text
      slot := ⟨external, declared.port, protocol⟩
      destination := destination
      enabled := defaults.enabled
      interface := defaults.interface
      source := view.source? } }

/-- The rule for one token, after tokens that took the names and external ports
`names` and `ports`. -/
def ruleFor (view : ServiceView) (defaults : RuleDefaults) (destination : Address)
    (names : List String) (ports : List UInt16) (m : PortMapping) :
    Except DesiredError DesiredRule :=
  match view.ports.find? fun p => p.name == m.port with
  | none => .error (.unknownPort m.port (view.ports.map DeclaredPort.name))
  | some declared =>
    let external := m.external.getD declared.port
    if names.contains m.port then .error (.duplicateName m.port)
    else if ports.contains external then .error (.duplicatePort external)
    else
      match Protocol.parse declared.protocol with
      | none =>
          .error (.unsupportedProtocol declared.name
            (Text.lowered declared.protocol))
      | some protocol => .ok (rule view defaults destination declared external protocol)

/-- The rules for the tokens of a mapping, in order. -/
def rulesForAll (view : ServiceView) (defaults : RuleDefaults)
    (destination : Address) :
    List String → List UInt16 → List PortMapping →
      Except DesiredError (List DesiredRule)
  | _, _, [] => .ok []
  | names, ports, m :: ms => do
    let r ← ruleFor view defaults destination names ports m
    let rs ← rulesForAll view defaults destination (m.port :: names)
      (r.slot.external :: ports) ms
    return r :: rs

/-- The rules that a Service wants. A Service without a mapping wants none. -/
def rulesFor (view : ServiceView) (defaults : RuleDefaults) :
    Except DesiredError (List DesiredRule) :=
  match view.mapping? with
  | none => .ok []
  | some text =>
    match view.destination with
    | none => .error .noDestination
    | some destination =>
      match Mapping.parse text with
      | .error e => .error (.mapping e)
      | .ok ms => rulesForAll view defaults destination [] [] ms

def externalPorts (rules : List DesiredRule) : List UInt16 :=
  rules.map fun r => r.slot.external

/-- The rules that a Service wants, with their external ports reserved for it. -/
def calculate (reservations : Reservations) (view : ServiceView)
    (defaults : RuleDefaults) :
    Except DesiredError (List DesiredRule × Reservations) :=
  match rulesFor view defaults with
  | .error e => .error e
  | .ok rules =>
    match reservations.claim view.key (externalPorts rules) with
    | .error c => .error (.conflict c)
    | .ok reservations => .ok (rules, reservations)

end Desired

end PortForwarding
