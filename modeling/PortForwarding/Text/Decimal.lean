/-! # Decimal numbers in text

Reading and writing natural numbers as ASCII digits. Leading zeros carry no value
and there is no bound on the number of digits (`readNat`); a 16-bit field may also
open with a plus sign (`readWord`).
-/

namespace PortForwarding.Text

/-- The value of a list of ASCII digits, after `acc`. -/
def digitsValue (acc : Nat) (cs : List Char) : Nat :=
  cs.foldl (fun n c => n * 10 + (c.toNat - '0'.toNat)) acc

/-- The number written by one or more ASCII digits and nothing else. -/
def readNat (cs : List Char) : Option Nat :=
  if cs ≠ [] ∧ cs.all Char.isDigit then some (digitsValue 0 cs) else none

/-- The number below `bound` written by one or more ASCII digits. -/
def readBelow (bound : Nat) (cs : List Char) : Option Nat :=
  (readNat cs).filter (· < bound)

/-- A 16-bit number: an optional plus sign, then digits. -/
def readWord (s : String) : Option UInt16 :=
  match s.toList with
  | '+' :: cs => (readBelow 65536 cs).map UInt16.ofNat
  | cs => (readBelow 65536 cs).map UInt16.ofNat

/-- The digits of a number, most significant first, without leading zeros. -/
def showNat (n : Nat) : String :=
  String.ofList (Nat.toDigits 10 n)

/-- A number in at least `width` digits, filled with zeros on the left. -/
def showPadded (width n : Nat) : String :=
  let digits := Nat.toDigits 10 n
  String.ofList (List.replicate (width - digits.length) '0' ++ digits)

end PortForwarding.Text
