import PortForwarding.Json.Basic
import PortForwarding.Text.Decimal

/-! # Reading JSON

A recursive reader on characters: each function returns the value together with the
characters left. The whole text must be one value, with blanks around it. Nesting is
bounded by the length of the text alone, which `parse` hands to the reader as fuel.
-/

namespace PortForwarding.Json

/-- The four characters that may stand between tokens. -/
def isSpace (c : Char) : Bool :=
  c == ' ' || c == '\n' || c == '\r' || c == '\t'

/-- The characters from the first one that is not space. -/
def skipSpace (cs : List Char) : List Char :=
  cs.dropWhile isSpace

/-! ## String literals -/

/-- A unit of a string literal: a character, or one half of a surrogate pair. -/
inductive Piece where
  | char (c : Char)
  | half (code : Nat)

/-- The value of a hexadecimal digit in either case. -/
def hexValue (c : Char) : Option Nat :=
  if c.isDigit then some (c.toNat - '0'.toNat)
  else if 'a' ≤ c ∧ c ≤ 'f' then some (c.toNat - 'a'.toNat + 10)
  else if 'A' ≤ c ∧ c ≤ 'F' then some (c.toNat - 'A'.toNat + 10)
  else none

/-- The unit that four hexadecimal digits stand for. -/
def codePiece (a b c d : Char) : Option Piece := do
  let n := (((← hexValue a) * 16 + (← hexValue b)) * 16 + (← hexValue c)) * 16 +
    (← hexValue d)
  return if 0xD800 ≤ n ∧ n < 0xE000 then .half n else .char (Char.ofNat n)

/-- The character that a letter after a backslash stands for. -/
def escapeChar (c : Char) : Option Char :=
  match c with
  | '"' => some '"'
  | '\\' => some '\\'
  | '/' => some '/'
  | 'b' => some '\x08'
  | 'f' => some '\x0c'
  | 'n' => some '\n'
  | 'r' => some '\r'
  | 't' => some '\t'
  | _ => none

def readPieces : List Char → Option (List Piece × List Char)
  | [] => none
  | '"' :: rest => some ([], rest)
  | '\\' :: 'u' :: a :: b :: c :: d :: rest => do
    let piece ← codePiece a b c d
    let (pieces, rest) ← readPieces rest
    return (piece :: pieces, rest)
  | '\\' :: e :: rest => do
    let c ← escapeChar e
    let (pieces, rest) ← readPieces rest
    return (.char c :: pieces, rest)
  | c :: rest => do
    if c.toNat < 32 then none
    let (pieces, rest) ← readPieces rest
    return (.char c :: pieces, rest)

def pairChar (high low : Nat) : Char :=
  Char.ofNat (0x10000 + (high - 0xD800) * 0x400 + (low - 0xDC00))

/-- The characters of a literal; none where half a pair stands alone. -/
def joinPieces : List Piece → Option (List Char)
  | [] => some []
  | .char c :: ps => (joinPieces ps).map (c :: ·)
  | .half high :: .half low :: ps =>
    if high < 0xDC00 ∧ 0xDC00 ≤ low then
      (joinPieces ps).map (pairChar high low :: ·)
    else none
  | .half _ :: _ => none

/-- The text of a literal after its opening quote, none if it is no text. -/
def readText (cs : List Char) : Option (Option String × List Char) :=
  (readPieces cs).map fun (pieces, rest) => ((joinPieces pieces).map String.ofList, rest)

/-! ## Numbers -/

/-- One or more digits, and the characters after them. -/
def readDigits (cs : List Char) : Option (List Char × List Char) :=
  let (digits, rest) := cs.span Char.isDigit
  if digits.isEmpty then none else some (digits, rest)

/-- The digits before the fraction: a zero alone or no leading zero. -/
def readWhole (cs : List Char) : Option (List Char × List Char) :=
  match cs with
  | '0' :: rest =>
      if (rest.head?.map Char.isDigit).getD false then none
      else some (['0'], rest)
  | cs => readDigits cs

/-- A fraction, if one starts here; whether there is one is the first component. -/
def readFraction (cs : List Char) : Option (Bool × List Char) :=
  match cs with
  | '.' :: rest => (readDigits rest).map fun (_, rest) => (true, rest)
  | cs => some (false, cs)

/-- An exponent, if one starts here; whether there is one is the first component. -/
def readExponent (cs : List Char) : Option (Bool × List Char) :=
  let signed (rest : List Char) : Option (Bool × List Char) :=
    match rest with
    | '+' :: rest => (readDigits rest).map fun (_, rest) => (true, rest)
    | '-' :: rest => (readDigits rest).map fun (_, rest) => (true, rest)
    | rest => (readDigits rest).map fun (_, rest) => (true, rest)
  match cs with
  | 'e' :: rest => signed rest
  | 'E' :: rest => signed rest
  | cs => some (false, cs)

/-- A number without its sign: its value if it is an integer. -/
def readUnsigned (cs : List Char) : Option (Option Nat × List Char) := do
  let (whole, rest) ← readWhole cs
  let (fraction, rest) ← readFraction rest
  let (exponent, rest) ← readExponent rest
  return (if fraction || exponent then none else some (Text.digitsValue 0 whole), rest)

/-- A number. Negative zero is no integer. -/
def readNumber (cs : List Char) : Option (Json × List Char) :=
  match cs with
  | '-' :: rest =>
    (readUnsigned rest).map fun (n, rest) =>
      match n with
      | some (n + 1) => (.int (.negSucc n), rest)
      | _ => (.unread, rest)
  | cs =>
    (readUnsigned cs).map fun (n, rest) =>
      match n with
      | some n => (.int (.ofNat n), rest)
      | none => (.unread, rest)

/-! ## Values -/

/-- The object with a member put in front; `none` stands for one that is
never read. -/
def addMember (name : Option String) (value : Json)
    (rest : Option (List (String × Json))) : Option (List (String × Json)) :=
  match name, rest with
  | some name, some members => some ((name, value) :: members)
  | _, _ => none

mutual

/-- A value that starts at the first character. -/
def readValue : Nat → List Char → Option (Json × List Char)
  | 0, _ => none
  | fuel + 1, cs =>
    match cs with
    | 'n' :: 'u' :: 'l' :: 'l' :: rest => some (.null, rest)
    | 't' :: 'r' :: 'u' :: 'e' :: rest => some (.bool true, rest)
    | 'f' :: 'a' :: 'l' :: 's' :: 'e' :: rest => some (.bool false, rest)
    | '"' :: rest =>
      (readText rest).map fun (s, rest) => ((s.map Json.str).getD .unread, rest)
    | '[' :: rest =>
      match skipSpace rest with
      | ']' :: rest => some (.arr [], rest)
      | rest => (readItems fuel rest).map fun (items, rest) => (.arr items, rest)
    | '\x7b' :: rest =>
      match skipSpace rest with
      | '\x7d' :: rest => some (.obj [], rest)
      | rest =>
        (readMembers fuel rest).map fun (members, rest) =>
          ((members.map Json.obj).getD .unread, rest)
    | cs => readNumber cs

/-- One or more items and the closing bracket. -/
def readItems : Nat → List Char → Option (List Json × List Char)
  | 0, _ => none
  | fuel + 1, cs => do
    let (item, rest) ← readValue fuel (skipSpace cs)
    match skipSpace rest with
    | ']' :: rest => return ([item], rest)
    | ',' :: rest =>
      let (items, rest) ← readItems fuel rest
      return (item :: items, rest)
    | _ => none

/-- One or more members and the closing brace. -/
def readMembers : Nat → List Char → Option (Option (List (String × Json)) × List Char)
  | 0, _ => none
  | fuel + 1, cs => do
    let (name, rest) ←
      match skipSpace cs with
      | '"' :: rest => readText rest
      | _ => none
    let rest ←
      match skipSpace rest with
      | ':' :: rest => some rest
      | _ => none
    let (value, rest) ← readValue fuel (skipSpace rest)
    match skipSpace rest with
    | '\x7d' :: rest => return (addMember name value (some []), rest)
    | ',' :: rest =>
      let (members, rest) ← readMembers fuel rest
      return (addMember name value members, rest)
    | _ => none

end

/-- The value that the whole text writes, if it writes one. -/
def parse (s : String) : Option Json := do
  let cs := s.toList
  let (value, rest) ← readValue (2 * cs.length + 1) (skipSpace cs)
  if (skipSpace rest).isEmpty then some value else none

end PortForwarding.Json
