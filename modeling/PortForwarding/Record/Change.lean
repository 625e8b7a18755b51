import PortForwarding.Json.Parser
import PortForwarding.Json.Printer
import PortForwarding.Json.Row
import PortForwarding.Service.View

/-! # The record of changes

After a successful pass the operator notes on the Service what it saw, and what
had changed since the note before. `PortChange.between` is the change of the
declared ports, read as a map from names to ports and protocols where the last
declaration of a name counts; `PortChange.patch` carries it out on such a map.
-/

namespace PortForwarding

open Json

/-! ## Changes of declared ports -/

/-- How a declared port changed. -/
inductive PortChangeType where
  | added
  | removed
  | modified
  deriving DecidableEq, Repr, Inhabited

namespace PortChangeType

def text : PortChangeType → String
  | .added => "added"
  | .removed => "removed"
  | .modified => "modified"

def all : List PortChangeType :=
  [.added, .removed, .modified]

end PortChangeType

/-- The change of one declared port. -/
structure PortChange where
  changeType : PortChangeType
  portName : String
  oldPort : Option UInt16
  newPort : Option UInt16
  oldProtocol : Option String
  newProtocol : Option String
  deriving DecidableEq, Repr, Inhabited

namespace PortChange

/-- The declared ports by name, in order of names; the last one of a name counts. -/
def byName (ports : List DeclaredPort) : List DeclaredPort :=
  (lastOfEach ports).mergeSort fun p q => decide (p.name ≤ q.name)
where
  lastOfEach : List DeclaredPort → List DeclaredPort
    | [] => []
    | p :: ps =>
        if ps.any fun q => q.name == p.name then lastOfEach ps
        else p :: lastOfEach ps

def named? (ports : List DeclaredPort) (name : String) : Option DeclaredPort :=
  ports.find? fun p => p.name == name

/-- The change of a port that was there before. -/
def ofOld? (now : List DeclaredPort) (before : DeclaredPort) : Option PortChange :=
  match named? now before.name with
  | none =>
      some ⟨.removed, before.name, some before.port, none,
        some before.protocol, none⟩
  | some after =>
    if after.port ≠ before.port ∨ after.protocol ≠ before.protocol then
      some ⟨.modified, before.name, some before.port, some after.port,
        some before.protocol, some after.protocol⟩
    else none

/-- The change of a port that is there now, if it was not before. -/
def ofNew? (old : List DeclaredPort) (after : DeclaredPort) : Option PortChange :=
  match named? old after.name with
  | none => some ⟨.added, after.name, none, some after.port, none, some after.protocol⟩
  | some _ => none

/-- The changes from one list of declared ports to another: first what became of
the old ports, then what came new, each in order of names. -/
def between (old new : List DeclaredPort) : List PortChange :=
  let old := byName old
  let new := byName new
  old.filterMap (ofOld? new) ++ new.filterMap (ofNew? old)

/-- A map from port names to ports and protocols. -/
abbrev PortMap := String → Option (UInt16 × String)

def portMap (ports : List DeclaredPort) : PortMap :=
  fun name => (named? (byName ports) name).map fun p => (p.port, p.protocol)

def patch (m : PortMap) (c : PortChange) : PortMap :=
  fun name =>
    if name = c.portName then
      match c.changeType, c.newPort, c.newProtocol with
      | .removed, _, _ => none
      | _, some port, some protocol => some (port, protocol)
      | _, _, _ => m name
    else m name

/-- A change as JSON; what is absent is left out. -/
def toJson (c : PortChange) : Json :=
  .obj ([("change_type", .str c.changeType.text), ("port_name", .str c.portName)]
    ++ (c.oldPort.map fun p => ("old_port", Json.nat p.toNat)).toList
    ++ (c.newPort.map fun p => ("new_port", Json.nat p.toNat)).toList
    ++ (c.oldProtocol.map fun s => ("old_protocol", Json.str s)).toList
    ++ (c.newProtocol.map fun s => ("new_protocol", Json.str s)).toList)

def ofJson (j : Json) : Option PortChange :=
  match j.row ["change_type", "port_name", "old_port", "new_port", "old_protocol",
    "new_protocol"] with
  | some [changeType, name, oldPort, newPort, oldProtocol, newProtocol] => do
    return {
      changeType := ← required (caseOf? PortChangeType.text PortChangeType.all) changeType
      portName := ← required text? name
      oldPort := ← optional word16? oldPort
      newPort := ← optional word16? newPort
      oldProtocol := ← optional text? oldProtocol
      newProtocol := ← optional text? newProtocol }
  | _ => none

end PortChange

namespace DeclaredPort

def toJson (p : DeclaredPort) : Json :=
  .obj [("name", .str p.name), ("port", .nat p.port.toNat), ("protocol", .str p.protocol)]

def ofJson (j : Json) : Option DeclaredPort :=
  match j.row ["name", "port", "protocol"] with
  | some [name, port, protocol] => do
    return {
      name := ← required text? name
      port := ← required word16? port
      protocol := ← required text? protocol }
  | _ => none

end DeclaredPort

/-! ## The record -/

/-- What a pass saw, and what had changed. -/
structure ChangeRecord where
  ipChanged : Bool
  oldIp : Option String
  newIp : Option String
  mappingChanged : Bool
  oldMapping : Option String
  newMapping : Option String
  specChanged : Bool
  portChanges : List PortChange
  serviceKey : String
  observedPorts : List DeclaredPort
  deriving DecidableEq, Repr, Inhabited

namespace ChangeRecord

/-- The record before the first pass. -/
def empty : ChangeRecord :=
  { ipChanged := false, oldIp := none, newIp := none
    mappingChanged := false, oldMapping := none
    newMapping := none, specChanged := false, portChanges := [], serviceKey := ""
    observedPorts := [] }

/-- The record of a Service after the record of the pass before. -/
def compute (previous : Option ChangeRecord) (view : ServiceView) : ChangeRecord :=
  let previous := previous.getD empty
  let newIp := view.destination.map Address.text
  let newMapping := view.mapping?
  let portChanges := PortChange.between previous.observedPorts view.ports
  { ipChanged := decide (previous.newIp ≠ newIp)
    oldIp := previous.newIp
    newIp := newIp
    mappingChanged := decide (previous.newMapping ≠ newMapping)
    oldMapping := previous.newMapping
    newMapping := newMapping
    specChanged := !portChanges.isEmpty
    portChanges := portChanges
    serviceKey := view.key.text
    observedPorts := view.ports }

def hasChanges (r : ChangeRecord) : Bool :=
  r.ipChanged || r.mappingChanged || r.specChanged

def toJson (r : ChangeRecord) : Json :=
  .obj [
    ("ip_changed", .bool r.ipChanged),
    ("old_ip", orNull (r.oldIp.map .str)),
    ("new_ip", orNull (r.newIp.map .str)),
    ("annotation_changed", .bool r.mappingChanged),
    ("old_annotation", orNull (r.oldMapping.map .str)),
    ("new_annotation", orNull (r.newMapping.map .str)),
    ("spec_changed", .bool r.specChanged),
    ("port_changes", .arr (r.portChanges.map PortChange.toJson)),
    ("service_key", .str r.serviceKey),
    ("observed_ports", .arr (r.observedPorts.map DeclaredPort.toJson))]

/-- The record that JSON describes. Any field may be missing. -/
def ofJson (j : Json) : Option ChangeRecord :=
  match j.row ["ip_changed", "old_ip", "new_ip", "annotation_changed",
    "old_annotation", "new_annotation", "spec_changed", "port_changes",
    "service_key", "observed_ports"] with
  | some [ipChanged, oldIp, newIp, mappingChanged, oldMapping, newMapping, specChanged,
      portChanges, serviceKey, observedPorts] => do
    return {
      ipChanged := ← defaulted false bool? ipChanged
      oldIp := ← optional text? oldIp
      newIp := ← optional text? newIp
      mappingChanged := ← defaulted false bool? mappingChanged
      oldMapping := ← optional text? oldMapping
      newMapping := ← optional text? newMapping
      specChanged := ← defaulted false bool? specChanged
      portChanges := ← defaulted [] (listOf? PortChange.ofJson) portChanges
      serviceKey := ← defaulted "" text? serviceKey
      observedPorts := ← defaulted [] (listOf? DeclaredPort.ofJson) observedPorts }
  | _ => none

def encode (r : ChangeRecord) : String :=
  r.toJson.text

/-- The record that a text holds, if it is readable. -/
def decode (s : String) : Option ChangeRecord :=
  (Json.parse s).bind ofJson

end ChangeRecord

end PortForwarding
