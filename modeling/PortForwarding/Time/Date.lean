/-! # Calendar dates

Dates of the Gregorian calendar, extended to all years. A `Date` is a day that
exists: the bounds on month and day are part of the type.
-/

namespace PortForwarding

def isLeapYear (year : Int) : Bool :=
  year % 4 == 0 && (year % 100 != 0 || year % 400 == 0)

/-- The number of days of a month; none outside 1 to 12. -/
def daysInMonth (year : Int) (month : Nat) : Nat :=
  match month with
  | 1 | 3 | 5 | 7 | 8 | 10 | 12 => 31
  | 4 | 6 | 9 | 11 => 30
  | 2 => if isLeapYear year then 29 else 28
  | _ => 0

/-- A day of the calendar. -/
structure Date where
  year : Int
  month : Nat
  day : Nat
  month_le : 1 ≤ month ∧ month ≤ 12
  day_le : 1 ≤ day ∧ day ≤ daysInMonth year month
  deriving DecidableEq, Repr

namespace Date

/-- The date with these numbers, if there is one. -/
def of? (year : Int) (month day : Nat) : Option Date :=
  if hm : 1 ≤ month ∧ month ≤ 12 then
    if hd : 1 ≤ day ∧ day ≤ daysInMonth year month then
      some ⟨year, month, day, hm, hd⟩
    else none
  else none

/-- The first of January 1970, from which times are counted. -/
def epoch : Date :=
  ⟨1970, 1, 1, by decide, by decide⟩

instance : Inhabited Date := ⟨epoch⟩

/-- The number of days from the first of March of year 0. A year is counted from
March on, so that the day that comes and goes is its last. -/
def number (d : Date) : Int :=
  let (y, m) := if d.month ≤ 2 then (d.year - 1, d.month + 9) else (d.year, d.month - 3)
  365 * y + y / 4 - y / 100 + y / 400 + ((153 * m + 2) / 5 + d.day - 1 : Nat)

def next (d : Date) : Date :=
  match of? d.year d.month (d.day + 1) with
  | some e => e
  | none =>
    match of? d.year (d.month + 1) 1 with
    | some e => e
    | none => (of? (d.year + 1) 1 1).getD d

def previous (d : Date) : Date :=
  match of? d.year d.month (d.day - 1) with
  | some e => e
  | none =>
    match of? d.year (d.month - 1) (daysInMonth d.year (d.month - 1)) with
    | some e => e
    | none => (of? (d.year - 1) 12 31).getD d

end Date

end PortForwarding
