import PortForwarding.Certificate.Element

/-! # Trust anchors

A certificate that other certificates are checked against. It has to be well
formed down to its extensions, of which it may hold each known one once; an
extension that is not known must not be critical. Old certificates, which do not
tell their version, have no extensions. Its dates and its signature are not looked
at.
-/

namespace PortForwarding.Certificate

/-! ## Extensions -/

/-- An extension of a certificate. -/
structure Extension where
  identifier : List UInt8
  /-- Whether who does not know the extension must refuse the certificate. -/
  critical : Bool
  value : List UInt8
  deriving DecidableEq, Repr, Inhabited

namespace Extension

/-- A truth value: all bits are set, or none. -/
def truth? (e : Element) : Option Bool :=
  if e.tag ≠ Element.boolean then none
  else if e.content = [0xFF] then some true
  else if e.content = [0x00] then some false
  else none

def ofParts? (identifier : Element) (critical : Option Bool) (value : Element) :
    Option Extension := do
  if identifier.tag = Element.identifier ∧ value.tag = Element.bytes then
    return ⟨identifier.content, ← critical, value.content⟩
  else none

/-- The extension that an element describes. It is not critical if it does not
say so. -/
def ofElement? (e : Element) : Option Extension :=
  match e.parts? with
  | some [identifier, value] => ofParts? identifier (some false) value
  | some [identifier, critical, value] => ofParts? identifier (truth? critical) value
  | _ => none

/-- The number of the extension that tells what a key is used for. -/
def keyUsage : UInt8 := 15

/-- The numbers of the known extensions: what the key is used for, other names,
whether the subject may issue certificates, which names it may issue them for,
where revocations are told, and what else the key is used for. -/
def known : List UInt8 := [keyUsage, 17, 19, 30, 31, 37]

def number? (x : Extension) : Option UInt8 :=
  known.find? fun n => x.identifier == [0x55, 0x1D, n]

/-- Whether an extension by itself does not spoil a certificate. The value of a
known one is a sequence, except for the key's usage. -/
def isSound (x : Extension) : Bool :=
  match x.number? with
  | none => !x.critical
  | some n => n == keyUsage || (Element.readOne? x.value).any (·.tag == Element.sequence)

/-- Whether extensions can stand together. -/
def areSound (xs : List Extension) : Bool :=
  xs.all isSound && decide (xs.filterMap number?).Nodup

end Extension

/-! ## Certificates -/

/-- A signature: whole bytes. -/
def isSignature (e : Element) : Bool :=
  e.tag == Element.bits && e.content.head? == some 0

/-- The extensions of a certificate, by the element that holds their list. -/
def extensions? (e : Element) : Option (List Extension) := do
  if e.tag ≠ Element.optional 3 then none
  else ((← (← Element.readOne? e.content).parts?)).mapM Extension.ofElement?

/-- The tags of what a certificate says: its number, the algorithm of its
signature, the issuer, the dates, the subject and the subject's key. -/
def statementTags : List UInt8 :=
  Element.integer :: List.replicate 5 Element.sequence

/-- Whether the parts of a statement are in order that tells its version, the
third one, and may hold extensions. -/
def isVersioned (algorithm : Element) (parts : List Element) : Bool :=
  let count := statementTags.length + 1
  (parts.take count).map Element.tag == Element.optional 0 :: statementTags
    && parts[0]?.map Element.content == some [Element.integer, 1, 2]
    && parts[2]? == some algorithm
    && match parts.drop count with
      | [] => true
      | [e] => (extensions? e).any Extension.areSound
      | _ => false

/-- Whether the parts of a statement are in order that does not tell its version. -/
def isUnversioned (parts : List Element) : Bool :=
  parts.map Element.tag == statementTags

/-- Whether a certificate can be a trust anchor. -/
def isAnchor (bs : List UInt8) : Bool :=
  match (Element.readOne? bs).bind Element.parts? with
  | some [statement, algorithm, signature] =>
    algorithm.tag == Element.sequence && isSignature signature
      && statement.parts?.any fun parts =>
        isVersioned algorithm parts || isUnversioned parts
  | _ => false

end PortForwarding.Certificate
