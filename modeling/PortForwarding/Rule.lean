import PortForwarding.Address.Basic

/-! # Port-forward rules

A rule on the router forwards an external port to a port of a host. Its `Slot`,
the external port, the internal port and the protocol together, never changes
while the rule lives; all other settings can be overwritten.

The router knows nothing of Services. What a Service owns is written into the
rule's name, `namespace/service:port`, and read back from it: `Owner.text` and
`Owner.parse`. A name typed by hand is no such name and nobody's property.
-/

namespace PortForwarding

/-! ## Slots -/

/-- A transport protocol. -/
inductive Protocol where
  | tcp
  | udp
  | tcpUdp
  deriving DecidableEq, Repr, Inhabited

namespace Protocol

def text : Protocol → String
  | .tcp => "tcp"
  | .udp => "udp"
  | .tcpUdp => "tcp_udp"

/-- The place of a protocol in the order of slots. -/
def rank : Protocol → Nat
  | .tcp => 0
  | .udp => 1
  | .tcpUdp => 2

/-- The protocol that a word names in any case of letters; both at once may be
written with an underscore or a stroke. -/
def parse (s : String) : Option Protocol :=
  let word := s.toList.map Char.toLower
  if word = "tcp".toList then some .tcp
  else if word = "udp".toList then some .udp
  else if word = "tcp_udp".toList ∨ word = "tcp/udp".toList then some .tcpUdp
  else none

end Protocol

/-- The ports and the protocol of a rule, which single it out. -/
structure Slot where
  external : UInt16
  internal : UInt16
  protocol : Protocol
  deriving DecidableEq, Repr, Inhabited

namespace Slot

def text (s : Slot) : String :=
  Text.showNat s.external.toNat ++ "->" ++ Text.showNat s.internal.toNat ++ "/" ++
    s.protocol.text

/-- Slots in order of external port, then internal port, then protocol. -/
def compare (s t : Slot) : Ordering :=
  (Ord.compare s.external.toNat t.external.toNat).then
    ((Ord.compare s.internal.toNat t.internal.toNat).then
      (Ord.compare s.protocol.rank t.protocol.rank))

/-- Whether `s` is not after `t`. -/
def le (s t : Slot) : Bool :=
  (s.compare t).isLE

end Slot

/-! ## Owners -/

/-- The namespace and name of a Service. -/
structure ServiceKey where
  «namespace» : String
  name : String
  deriving DecidableEq, Repr, Inhabited

namespace ServiceKey

def text (k : ServiceKey) : String :=
  k.namespace ++ "/" ++ k.name

/-- Keys in order of namespace, then name. -/
def le (k l : ServiceKey) : Bool :=
  ((Ord.compare k.namespace l.namespace).then (Ord.compare k.name l.name)).isLE

end ServiceKey

/-- A named port of a Service. -/
structure Owner where
  «namespace» : String
  service : String
  port : String
  deriving DecidableEq, Repr, Inhabited

namespace Owner

/-- The owner for a port of the Service `key`. -/
def of (key : ServiceKey) (port : String) : Owner :=
  ⟨key.namespace, key.name, port⟩

def key (o : Owner) : ServiceKey :=
  ⟨o.namespace, o.service⟩

/-- The name of an owner's rule on the router. -/
def text (o : Owner) : String :=
  o.namespace ++ "/" ++ o.service ++ ":" ++ o.port

/-- A character of the names that Kubernetes gives out. -/
def isNameChar (c : Char) : Bool :=
  c.isLower || c.isDigit || c == '-' || c == '.'

/-- A name that Kubernetes could have given out. -/
def isName (cs : List Char) : Bool :=
  !cs.isEmpty && cs.all isNameChar

/-- The characters before and after the first `mark`, if there is one. -/
def splitAtFirst (mark : Char) : List Char → Option (List Char × List Char)
  | [] => none
  | c :: cs =>
      if c = mark then some ([], cs)
      else (splitAtFirst mark cs).map fun (l, r) => (c :: l, r)

/-- The owner whose rule has this name, if any has. -/
def parse (name : String) : Option Owner := do
  let (ns, rest) ← splitAtFirst '/' name.toList
  let (service, port) ← splitAtFirst ':' rest
  if isName ns && isName service && isName port then
    some ⟨String.ofList ns, String.ofList service, String.ofList port⟩
  else none

end Owner

/-! ## Rules -/

/-- What the router is told about a rule. -/
structure RuleSpec where
  name : String
  slot : Slot
  destination : Address
  enabled : Bool
  interface : String
  /-- The only source that is let through; none lets all through. -/
  source : Option String
  deriving DecidableEq, Repr, Inhabited

/-- A rule on the router, under the identifier that the router gave it. -/
structure RouterRule where
  id : String
  spec : RuleSpec
  deriving DecidableEq, Repr, Inhabited

namespace RouterRule

def slot (r : RouterRule) : Slot :=
  r.spec.slot

/-- The owner that the rule's name tells. -/
def owner? (r : RouterRule) : Option Owner :=
  Owner.parse r.spec.name

/-- Whether the rule's name tells that the Service owns it. -/
def isOwnedBy (r : RouterRule) (key : ServiceKey) : Bool :=
  (r.owner?.map Owner.key) == some key

end RouterRule

/-- A rule that a Service wants. -/
structure DesiredRule where
  owner : Owner
  spec : RuleSpec
  deriving DecidableEq, Repr, Inhabited

namespace DesiredRule

def slot (r : DesiredRule) : Slot :=
  r.spec.slot

/-- A rule on the router as its owner would want it. -/
def ofRouterRule? (r : RouterRule) : Option DesiredRule :=
  r.owner?.map fun o => ⟨o, r.spec⟩

end DesiredRule

/-- The rules of a listing that the Service owns. -/
def ownedRules (key : ServiceKey) (rules : List RouterRule) : List RouterRule :=
  rules.filter fun r => r.isOwnedBy key

/-! ## Differences -/

/-- A setting in which a rule on the router is not what is wanted. -/
inductive Mismatch where
  /-- The rule is not owned by the Service that wants it. -/
  | ownership
  | name
  | ip
  | enabled
  | source
  | externalPort
  | internalPort
  | protocol
  deriving DecidableEq, Repr, Inhabited

namespace Mismatch

def text : Mismatch → String
  | .ownership => "ownership"
  | .name => "name"
  | .ip => "ip"
  | .enabled => "enabled"
  | .source => "source"
  | .externalPort => "external_port"
  | .internalPort => "internal_port"
  | .protocol => "protocol"

/-- All differences, in the order in which they are listed. -/
def all : List Mismatch :=
  [.ownership, .name, .ip, .enabled, .source, .externalPort, .internalPort, .protocol]

/-- A difference in the slot, which no update can mend. -/
def isRisky : Mismatch → Bool
  | .externalPort | .internalPort | .protocol => true
  | _ => false

/-- Whether `wanted` and the rule on the router differ in a setting. -/
def holds (wanted : DesiredRule) (current : RouterRule) : Mismatch → Bool
  | .ownership => !current.isOwnedBy wanted.owner.key
  | .name => wanted.spec.name != current.spec.name
  | .ip => wanted.spec.destination != current.spec.destination
  | .enabled => wanted.spec.enabled != current.spec.enabled
  | .source => wanted.spec.source != current.spec.source
  | .externalPort => wanted.slot.external != current.slot.external
  | .internalPort => wanted.slot.internal != current.slot.internal
  | .protocol => wanted.slot.protocol != current.slot.protocol

end Mismatch

/-- The settings in which a rule on the router is not what is wanted. The
interface is never looked at. -/
def mismatches (wanted : DesiredRule) (current : RouterRule) : List Mismatch :=
  Mismatch.all.filter (Mismatch.holds wanted current)

end PortForwarding
