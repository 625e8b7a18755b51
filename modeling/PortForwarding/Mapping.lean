import PortForwarding.Text.Blank
import PortForwarding.Text.Decimal
import PortForwarding.Text.Quoted

/-! # Port mappings

The annotation by which a Service asks for forwarded ports: tokens between commas,
each the name of a declared port, or a name, a colon and an external port. Blanks
around a token do not count.

`Mapping.parse` reads the annotation and reports the first token that does not
fit; `PortMapping.text` writes a token.
-/

namespace PortForwarding

/-- One token of the annotation: a declared port, and the external port if it
is given. -/
structure PortMapping where
  port : String
  external : Option UInt16
  deriving DecidableEq, Repr, Inhabited

def PortMapping.text (m : PortMapping) : String :=
  match m.external with
  | none => m.port
  | some p => m.port ++ ":" ++ Text.showNat p.toNat

/-- Why an annotation does not read. -/
inductive MappingError where
  /-- There is nothing but blanks. -/
  | empty (text : String)
  /-- A token has not the form of one. -/
  | malformed (token : String)
  /-- The external port is not between 1 and 65535. -/
  | outOfRange (port digits : String)
  deriving DecidableEq, Repr

/-- The message for an annotation that does not read. -/
def MappingError.message : MappingError → String
  | .empty text => unreadable text "annotation is empty"
  | .malformed token => unreadable token "expected portName or portName:externalPort"
  | .outOfRange port digits =>
    "external port " ++ digits ++ " for " ++ Text.quoted port ++
      " is out of range (1-65535)"
where
  unreadable (text reason : String) : String :=
    "invalid port mapping " ++ Text.quoted text ++ ": " ++ reason
      ++ " (valid examples: \"http\", \"http:8080\", \"http,https:8443\")"

namespace Mapping

/-! ## Tokens -/

def isAlnum (c : Char) : Bool :=
  c.isLower || c.isDigit

/-- The name of a port: small letters, digits and inner hyphens. -/
def isPortName (cs : List Char) : Bool :=
  cs.all (fun c => isAlnum c || c == '-')
    && (cs.head?.map isAlnum).getD false && (cs.getLast?.map isAlnum).getD false

/-- The characters before the first colon, and those after it if there is one. -/
def splitAtColon : List Char → List Char × Option (List Char)
  | [] => ([], none)
  | c :: cs =>
    if c = ':' then ([], some cs)
    else
      let (name, rest) := splitAtColon cs
      (c :: name, rest)

def externalPort? (digits : List Char) : Option UInt16 :=
  match Text.readBelow 65536 digits with
  | some n => if 1 ≤ n then some (UInt16.ofNat n) else none
  | none => none

/-- A token without blanks around it. -/
def parseToken (token : List Char) : Except MappingError PortMapping :=
  let (name, rest) := splitAtColon token
  let port := String.ofList name
  if !isPortName name then .error (.malformed (String.ofList token))
  else
    match rest with
    | none => .ok ⟨port, none⟩
    | some digits =>
      if digits.isEmpty || !digits.all Char.isDigit then
        .error (.malformed (String.ofList token))
      else
        match externalPort? digits with
        | some p => .ok ⟨port, some p⟩
        | none => .error (.outOfRange port (String.ofList digits))

/-! ## Annotations -/

/-- The pieces of a text between commas. There is always at least one. -/
def splitAtCommas : List Char → List (List Char)
  | [] => [[]]
  | c :: cs =>
    if c = ',' then [] :: splitAtCommas cs
    else
      match splitAtCommas cs with
      | [] => [[c]]
      | piece :: pieces => (c :: piece) :: pieces

/-- The mappings of an annotation, in order. -/
def parse (text : String) : Except MappingError (List PortMapping) :=
  if (Text.trim text.toList).isEmpty then .error (.empty text)
  else (splitAtCommas text.toList).mapM fun piece => parseToken (Text.trim piece)

end Mapping

end PortForwarding
