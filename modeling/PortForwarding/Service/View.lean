import PortForwarding.Address.Reader
import PortForwarding.Service.Mark
import PortForwarding.Service.Object
import PortForwarding.Text.Blank

/-! # The view of a Service

What the operator makes of a Service: who it is, which ports it declares by name,
where its traffic goes and what its annotations ask for. `ServiceView.of?` builds
it and says why it cannot (`ViewError`).
-/

namespace PortForwarding

/-- A port that a Service declares under a name. -/
structure DeclaredPort where
  name : String
  port : UInt16
  /-- The protocol in the spelling of Kubernetes. -/
  protocol : String
  deriving DecidableEq, Repr, Inhabited

/-- Why a Service has no view. -/
inductive ViewError where
  | missingField (path : String)
  | invalidAddress (text : String)
  deriving DecidableEq, Repr

def ViewError.message : ViewError → String
  | .missingField path => "Missing required field: " ++ path
  | .invalidAddress text =>
    "Invalid IP address in annotation " ++ Mark.ipAddress ++ ": " ++ text

/-- What the operator knows of a Service. -/
structure ServiceView where
  key : ServiceKey
  annotations : List (String × String)
  ports : List DeclaredPort
  destination : Option Address
  deleting : Bool
  hasFinalizer : Bool
  reference : ObjectReference
  deriving DecidableEq, Repr, Inhabited

namespace ServiceView

/-- A declared port; none for one without a name or without a valid number. -/
def declared? (p : PortSpec) : Option DeclaredPort :=
  match p.name with
  | some name =>
    if name ≠ "" ∧ 0 ≤ p.port ∧ p.port < 65536 then
      some ⟨name, UInt16.ofNat p.port.toNat, p.protocol.getD "TCP"⟩
    else none
  | none => none

/-- Where the traffic of a Service goes: the address in the annotation, if it says
anything, and otherwise the first address of a load balancer, if it is one. -/
def destinationOf (o : ServiceObject) : Except ViewError (Option Address) :=
  let published := (o.ingress.findSome? id).bind Address.parse
  match o.annotation? Mark.ipAddress with
  | none => .ok published
  | some text =>
    if text = "" then .ok published
    else
      match Address.parse text with
      | some a => .ok (some a)
      | none => .error (.invalidAddress text)

def of? (o : ServiceObject) : Except ViewError ServiceView :=
  match o.namespace, o.name with
  | none, _ => .error (.missingField "metadata.namespace")
  | some _, none => .error (.missingField "metadata.name")
  | some ns, some name => do
    let destination ← destinationOf o
    return {
      key := ⟨ns, name⟩
      annotations := o.annotations
      ports := o.ports.filterMap declared?
      destination := destination
      deleting := o.deleting
      hasFinalizer := o.finalizers.contains Mark.finalizer
      reference := o.reference }

/-! ## What the annotations ask for -/

def annotation? (v : ServiceView) (name : String) : Option String :=
  v.annotations.lookup name

/-- The ports to forward, as they stand in the annotation. -/
def mapping? (v : ServiceView) : Option String :=
  v.annotation? Mark.ports

/-- A restriction on the source; blank text and the word `any` are none. -/
def restriction? (text : String) : Option String :=
  let source := Text.trimmed text
  if source = "" ∨ Text.sameWord source "any" then none else some source

/-- The only source that the Service lets through. -/
def source? (v : ServiceView) : Option String :=
  (v.annotation? Mark.source).bind restriction?

/-- A Service that asks for ports and has somewhere to send them is managed. -/
def qualifies (v : ServiceView) : Bool :=
  v.mapping?.isSome && v.destination.isSome

end ServiceView

end PortForwarding
