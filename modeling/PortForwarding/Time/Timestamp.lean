import PortForwarding.Time.Date
import PortForwarding.Text.Decimal

/-! # Points in time

A `Timestamp` is a point in universal time to the nanosecond, kept as a date and a
time of day. A leap second lies in the last second of its minute, with a
nanosecond count of a thousand million or more.

`Timestamp.text` is the written form: `2024-01-01T00:00:00Z`, with a fraction of
three, six or nine digits where one is needed.
-/

namespace PortForwarding

def nanosPerSecond : Nat := 1000000000

def secondsPerDay : Nat := 86400

/-- A point in universal time. -/
structure Timestamp where
  date : Date
  /-- Seconds since midnight. -/
  second : Nat
  /-- Nanoseconds within the second. -/
  nano : Nat
  second_lt : second < secondsPerDay
  nano_lt : nano < 2 * nanosPerSecond
  deriving DecidableEq, Repr

namespace Timestamp

def midnight (date : Date) : Timestamp :=
  ⟨date, 0, 0, by decide, by decide⟩

instance : Inhabited Timestamp := ⟨midnight Date.epoch⟩

/-- The second that a leap second inserts between two times of a day, seen from the
second time: one, if an earlier leap second lies in between. -/
def leapBetween (later earlier : Timestamp) : Int :=
  if later.second > earlier.second then
    if earlier.nano ≥ nanosPerSecond then 1 else 0
  else if later.second < earlier.second then
    if later.nano ≥ nanosPerSecond then -1 else 0
  else 0

/-- The nanoseconds from `earlier` to `later`. -/
def since (later earlier : Timestamp) : Int :=
  let days := later.date.number - earlier.date.number
  let seconds := (later.second : Int) - earlier.second + leapBetween later earlier
  (days * secondsPerDay + seconds) * nanosPerSecond + ((later.nano : Int) - earlier.nano)

/-- The nanoseconds from `earlier` to `later`, none if `earlier` is not
before it. -/
def elapsed (later earlier : Timestamp) : Nat :=
  (later.since earlier).toNat

/-! ## The written form -/

/-- A year: four digits up to 9999, and otherwise with its sign. -/
def yearText (year : Int) : String :=
  match year with
  | .ofNat n => if n ≤ 9999 then Text.showPadded 4 n else "+" ++ Text.showPadded 4 n
  | .negSucc n => "-" ++ Text.showPadded 4 (n + 1)

/-- A fraction of a second in as few groups of three digits as show it. -/
def fractionText (nano : Nat) : String :=
  if nano = 0 then ""
  else if nano % 1000000 = 0 then "." ++ Text.showPadded 3 (nano / 1000000)
  else if nano % 1000 = 0 then "." ++ Text.showPadded 6 (nano / 1000)
  else "." ++ Text.showPadded 9 nano

def text (t : Timestamp) : String :=
  let leap := t.nano / nanosPerSecond
  let nano := t.nano % nanosPerSecond
  yearText t.date.year ++ "-" ++ Text.showPadded 2 t.date.month ++ "-"
    ++ Text.showPadded 2 t.date.day ++ "T" ++ Text.showPadded 2 (t.second / 3600) ++ ":"
    ++ Text.showPadded 2 (t.second / 60 % 60) ++ ":" ++
      Text.showPadded 2 (t.second % 60 + leap)
    ++ fractionText nano ++ "Z"

end Timestamp

end PortForwarding
