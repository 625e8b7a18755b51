import PortForwarding.Text.Blank
import PortForwarding.Time.Timestamp

/-! # Reading points in time

Times written by others are read with some tolerance: blanks around the numbers, a
blank instead of the `T`, single digits, any offset from universal time. The
result is always in universal time.

Each step takes the characters at hand and returns what it read with the
characters left, or nothing if the text does not fit.
-/

namespace PortForwarding.Timestamp

open PortForwarding.Text (trimStart digitsValue)

/-- Up to `limit` digits from the start of the text. -/
def takeDigits (limit : Nat) (cs : List Char) : List Char :=
  (cs.take limit).takeWhile Char.isDigit

/-- A number of one to `limit` digits, after blanks. -/
def readNumber (limit : Nat) (cs : List Char) : Option (Nat × List Char) :=
  let cs := trimStart cs
  let digits := takeDigits limit cs
  if digits.isEmpty then none else some (digitsValue 0 digits, cs.drop digits.length)

/-- A year: up to four digits, or a sign and any number of them. -/
def readYear (cs : List Char) : Option (Int × List Char) :=
  match trimStart cs with
  | '-' :: rest =>
    let digits := rest.takeWhile Char.isDigit
    if digits.isEmpty then none
    else some (-(digitsValue 0 digits : Int), rest.drop digits.length)
  | '+' :: rest =>
    let digits := rest.takeWhile Char.isDigit
    if digits.isEmpty then none
    else some ((digitsValue 0 digits : Int), rest.drop digits.length)
  | rest => (readNumber 4 rest).map fun (n, rest) => ((n : Int), rest)

def readMark (c : Char) (cs : List Char) : Option (List Char) :=
  match trimStart cs with
  | d :: rest => if d = c then some rest else none
  | [] => none

/-- The mark between date and time: a `T` in either case, or a blank. -/
def readBetween : List Char → Option (List Char)
  | c :: rest => if c = 'T' ∨ c = 't' ∨ c = ' ' then some rest else none
  | [] => none

/-- A fraction in nanoseconds, if a point starts one. Digits after the ninth are
passed over. -/
def readFraction (cs : List Char) : Option (Nat × List Char) :=
  match cs with
  | '.' :: rest =>
    let digits := takeDigits 9 rest
    if digits.isEmpty then none
    else
      some (digitsValue 0 digits * Nat.pow 10 (9 - digits.length),
        rest.dropWhile Char.isDigit)
  | cs => some (0, cs)

def readPair : List Char → Option (Nat × List Char)
  | a :: b :: rest =>
    if a.isDigit ∧ b.isDigit then some (digitsValue 0 [a, b], rest) else none
  | _ => none

/-- The seconds of an offset after its sign: hours and minutes, with colons or
blanks between them. An offset is less than a day. -/
def readOffsetSize (cs : List Char) : Option (Nat × List Char) := do
  let (hours, rest) ← readPair cs
  let (minutes, rest) ← readPair (rest.dropWhile fun c => c == ':' || Text.isBlank c)
  let size := hours * 3600 + minutes * 60
  if minutes < 60 ∧ size < secondsPerDay then some (size, rest) else none

/-- The offset from universal time in seconds: `Z`, `UTC`, or a sign with hours and
minutes. The sign may be the minus sign of typography. -/
def readOffset (cs : List Char) : Option (Int × List Char) :=
  let cs := trimStart cs
  if (cs.take 3).map Char.toUpper = ['U', 'T', 'C'] then some (0, cs.drop 3)
  else
    match cs with
    | 'Z' :: rest => some (0, rest)
    | 'z' :: rest => some (0, rest)
    | '+' :: rest => (readOffsetSize rest).map fun (n, rest) => ((n : Int), rest)
    | '-' :: rest => (readOffsetSize rest).map fun (n, rest) => (-(n : Int), rest)
    | '\u2212' :: rest => (readOffsetSize rest).map fun (n, rest) => (-(n : Int), rest)
    | _ => none

def yearInRange (year : Int) : Bool :=
  decide (-262143 ≤ year) && decide (year ≤ 262142)

/-- The point in universal time that a local time shows at an offset from it. -/
def ofLocal? (date : Date) (second nano : Nat) (offset : Int) : Option Timestamp :=
  let shifted : Int := second - offset
  let date :=
    if shifted < 0 then date.previous
    else if shifted ≥ secondsPerDay then date.next
    else date
  let second := (shifted % secondsPerDay).toNat
  if h : second < secondsPerDay ∧ nano < 2 * nanosPerSecond ∧ yearInRange date.year then
    some ⟨date, second, nano, h.1, h.2.1⟩
  else none

/-- The point in time that the whole text writes, if it writes one. -/
def parse (s : String) : Option Timestamp := do
  let (year, rest) ← readYear s.toList
  let (month, rest) ← readNumber 2 (← readMark '-' rest)
  let (day, rest) ← readNumber 2 (← readMark '-' rest)
  let (hour, rest) ← readNumber 2 (← readBetween rest)
  let (minute, rest) ← readNumber 2 (← readMark ':' rest)
  let (second, rest) ← readNumber 2 (← readMark ':' rest)
  let (nano, rest) ← readFraction rest
  let (offset, rest) ← readOffset rest
  if (trimStart rest).isEmpty ∧ yearInRange year ∧ hour < 24 ∧ minute < 60 ∧
      second ≤ 60 then
    let date ← Date.of? year month day
    let leap := second / 60
    ofLocal? date (hour * 3600 + minute * 60 + (second - leap))
      (nano + leap * nanosPerSecond) offset
  else none

end PortForwarding.Timestamp
