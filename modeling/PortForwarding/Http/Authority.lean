import PortForwarding.Address.Reader

/-! # Authorities

The part of an address that says whom to ask: a host, with a user before it and a
port after it or without them. A host is a name, or a numeric address of either
version of the internet protocol. A name whose last label is a number is a numeric
address, too, of up to four numbers, the last of which fills the bytes that are
left.
-/

namespace PortForwarding.Authority

/-! ## Ports and users -/

/-- Whether a text is a port; none need be given. -/
def isPort (cs : List Char) : Bool :=
  cs.all Char.isDigit && decide (Text.digitsValue 0 cs < 65536)

/-- The characters after the user, which ends at the last at sign. -/
def afterUser (cs : List Char) : List Char :=
  (cs.reverse.takeWhile (· != '@')).reverse

/-- The host and the port after it. The colons between brackets belong to
the host. -/
def splitPort (inside : Bool) : List Char → List Char × List Char
  | [] => ([], [])
  | c :: cs =>
    if c = ':' ∧ !inside then ([], cs)
    else
      let (host, port) := splitPort (c == '[' || (inside && c != ']')) cs
      (c :: host, port)

/-! ## Hosts -/

/-- A text in which characters are written out that were given as percent signs and
hexadecimal digits. -/
def unescaped : List Char → List Char
  | '%' :: a :: b :: cs =>
    match Json.hexValue a, Json.hexValue b with
    | some m, some n => Char.ofNat (m * 16 + n) :: unescaped cs
    | _, _ => '%' :: unescaped (a :: b :: cs)
  | c :: cs => c :: unescaped cs
  | [] => []

/-- A character that may stand in the name of a host: a letter, a digit, one of
some signs, or one beyond ASCII. -/
def isNameChar (c : Char) : Bool :=
  c.isAlphanum || "!$&'()*+,-.;=_~".toList.contains c || decide (0x80 ≤ c.toNat)

/-- The labels of a name, without the empty one after a point at its end. -/
def labels (cs : List Char) : List (List Char) :=
  let all := cs.splitOn '.'
  if all.getLast? = some [] then all.dropLast else all

/-- The number that a label writes: to the base 16 after `0x`, to the base 8 after
another zero, and else to the base 10. -/
def labelNumber? (cs : List Char) : Option Nat :=
  let (base, digits) : Nat × List Char :=
    match cs with
    | '0' :: c :: rest => if c = 'x' ∨ c = 'X' then (16, rest) else (8, c :: rest)
    | _ => (10, cs)
  if cs.isEmpty then none
  else
    (digits.mapM fun c => (Json.hexValue c).filter (· < base)).map fun values =>
      values.foldl (fun n d => n * base + d) 0

/-- Whether a name has the form of a numeric address. -/
def isNumeric (name : List (List Char)) : Bool :=
  name.getLast?.any fun label =>
    !label.isEmpty && (label.all Char.isDigit || (labelNumber? label).isSome)

def isQuad (name : List (List Char)) : Bool :=
  match (name.mapM labelNumber?).map List.reverse with
  | some (last :: others) =>
    decide (others.length ≤ 3) && others.all (· < 256) &&
      decide (last < Nat.pow 256 (4 - others.length))
  | _ => false

/-- Whether a text is an address of version 6. -/
def isGroups (cs : List Char) : Bool :=
  (Address.parseGroups cs).isSome

def isHost (cs : List Char) : Bool :=
  match cs with
  | '[' :: rest => rest.getLast? == some ']' && isGroups rest.dropLast
  | _ =>
    let name := unescaped cs
    !name.isEmpty && name.all isNameChar &&
      (!isNumeric (labels name) || isQuad (labels name))

def isValid (cs : List Char) : Bool :=
  let (host, port) := splitPort false (afterUser cs)
  isHost host && isPort port

end PortForwarding.Authority
