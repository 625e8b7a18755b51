import PortForwarding.Address.Basic
import PortForwarding.Json.Parser

/-! # Reading addresses

A strict reader: a dotted quad has four numbers below 256 without leading zeros, a
group has one to four hexadecimal digits, at most one `::` stands for one or more
zero groups, and the last two groups may be written as a dotted quad. Nothing may
surround the address.
-/

namespace PortForwarding.Address

open PortForwarding.Text (digitsValue)

/-! ## Version 4 -/

/-- A number of a dotted quad and the characters after it. -/
def readByte (cs : List Char) : Option (UInt8 × List Char) :=
  let digits := cs.takeWhile Char.isDigit
  let value := digitsValue 0 digits
  if digits ≠ [] ∧ digits.length ≤ 3 ∧ value < 256 ∧
    (digits.head? = some '0' → digits.length = 1)
  then some (UInt8.ofNat value, cs.drop digits.length)
  else none

def readQuad (cs : List Char) :
    Option ((UInt8 × UInt8 × UInt8 × UInt8) × List Char) := do
  let point : List Char → Option (List Char)
    | '.' :: rest => some rest
    | _ => none
  let (a, rest) ← readByte cs
  let (b, rest) ← readByte (← point rest)
  let (c, rest) ← readByte (← point rest)
  let (d, rest) ← readByte (← point rest)
  return ((a, b, c, d), rest)

/-! ## Version 6 -/

def readGroup (cs : List Char) : Option (UInt16 × List Char) :=
  let digits := cs.takeWhile fun c => (Json.hexValue c).isSome
  let value := digits.foldl (fun n c => n * 16 + (Json.hexValue c).getD 0) 0
  if digits ≠ [] ∧ digits.length ≤ 4 then
    some (UInt16.ofNat value, cs.drop digits.length)
  else none

/-- The text after the colon that stands before every group but the first. -/
def afterColon (first : Bool) (cs : List Char) : Option (List Char) :=
  match first, cs with
  | true, cs => some cs
  | false, ':' :: rest => some rest
  | false, _ => none

/-- The two groups that a dotted quad stands for. -/
def quadGroups : UInt8 × UInt8 × UInt8 × UInt8 → List UInt16
  | (a, b, c, d) => [a.toUInt16 * 256 + b.toUInt16, c.toUInt16 * 256 + d.toUInt16]

/-- As many groups as there are, up to `limit`; whether they end in a dotted quad;
and the characters left. -/
def readGroups (first : Bool) : Nat → List Char → List UInt16 × Bool × List Char
  | 0, cs => ([], false, cs)
  | limit + 1, cs =>
    let quad := if limit = 0 then none else (afterColon first cs).bind readQuad
    match quad with
    | some (q, rest) => (quadGroups q, true, rest)
    | none =>
      match (afterColon first cs).bind readGroup with
      | none => ([], false, cs)
      | some (g, rest) =>
        let (gs, ended, rest) := readGroups false limit rest
        (g :: gs, ended, rest)

def ofGroups? (gs : List UInt16) : Option Address :=
  if h : gs.toArray.size = 8 then some (.v6 ⟨gs.toArray, h⟩) else none

/-- A version 6 address that is the whole text. -/
def parseGroups (cs : List Char) : Option Address :=
  match readGroups true 8 cs with
  | (head, ended, rest) =>
    if head.length = 8 then if rest.isEmpty then ofGroups? head else none
    else if ended then none
    else
      match rest with
      | ':' :: ':' :: rest =>
        match readGroups true (7 - head.length) rest with
        | (tail, _, rest) =>
          let zeros := List.replicate (8 - head.length - tail.length) 0
          if rest.isEmpty then ofGroups? (head ++ zeros ++ tail) else none
      | _ => none

/-- The address that the whole text writes, if it writes one. -/
def parse (s : String) : Option Address :=
  match readQuad s.toList with
  | some ((a, b, c, d), []) => some (.v4 a b c d)
  | _ => parseGroups s.toList

end PortForwarding.Address

