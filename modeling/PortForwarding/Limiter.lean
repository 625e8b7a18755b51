import PortForwarding.Table

/-! # The error limiter

A failure that repeats is reported at once, then after a minute, and then at growing
distances, the steps of `Limiter.ladder`. In between it is only counted. A different
failure of the same subject starts over, so that a new trouble never hides behind an
old one. Failures are the same if their texts are.

Times are nanoseconds from a common origin. A time that lies before an earlier one
counts as no time passed. Counts have no largest value.
-/

namespace PortForwarding

/-- What is known of the latest failure of a subject. -/
structure FailureEntry where
  error : String
  /-- How often it has been observed. -/
  count : Nat
  /-- The value of `count` when it was last reported. -/
  surfacedCount : Nat
  /-- The step of the ladder that the next report has to wait for. -/
  rung : Nat
  lastSurfaced : Nat
  lastSeen : Nat
  deriving DecidableEq, Repr

/-- What to do about an observed failure. -/
structure Decision where
  /-- Report it. -/
  surface : Bool
  /-- How long it stays suppressed, if it is. -/
  requeueAfter : Option Nat
  /-- How often it has been observed. -/
  count : Nat
  /-- How often it has been observed since it was last reported, this time
  included. -/
  sinceSurfaced : Nat
  deriving DecidableEq, Repr, Inhabited

/-- The latest failure of each subject. -/
structure Limiter where
  entries : Table String FailureEntry
  deriving DecidableEq, Repr, Inhabited

namespace Limiter

/-- A number of seconds in nanoseconds. -/
def seconds (n : Nat) : Nat := n * 1000000000

/-- The seconds that have to pass between two reports of one failure. -/
def ladder : List Nat :=
  [0, 60, 300, 900, 3600]

def topRung : Nat := ladder.length - 1

/-- The time that a report has to wait on a step of the ladder. -/
def wait (rung : Nat) : Nat :=
  seconds (ladder.getD rung (ladder.getLastD 0))

/-- How long an entry may stay untouched before a sweep takes it away. -/
def idleTime : Nat := seconds (24 * 60 * 60)

def empty : Limiter := ⟨.empty⟩

def firstEntry (error : String) (now : Nat) : FailureEntry :=
  { error := error, count := 1, surfacedCount := 1, rung := 1,
    lastSurfaced := now, lastSeen := now }

/-- The time until an entry may be reported again. -/
def remaining (e : FailureEntry) (now : Nat) : Nat :=
  wait e.rung - (now - e.lastSurfaced)

/-- The entry and the decision after the failure of an entry has come again. -/
def again (e : FailureEntry) (now : Nat) : FailureEntry × Decision :=
  let count := e.count + 1
  let since := count - e.surfacedCount
  let left := remaining e now
  if left = 0 then
    ({ e with
        count := count, lastSeen := now, lastSurfaced := now, surfacedCount := count
        rung := min (e.rung + 1) topRung },
      ⟨true, none, count, since⟩)
  else ({ e with count := count, lastSeen := now }, ⟨false, some left, count, since⟩)

/-- A failure of a subject is observed. -/
def observe (l : Limiter) (subject error : String) (now : Nat) : Decision × Limiter :=
  match l.entries.get? subject with
  | none => (⟨true, none, 1, 1⟩, ⟨l.entries.set subject (firstEntry error now)⟩)
  | some e =>
    if e.error = error then
      let (e, d) := again e now
      (d, ⟨l.entries.set subject e⟩)
    else (⟨true, none, 1, 1⟩, ⟨l.entries.set subject (firstEntry error now)⟩)

/-- The time until the failure of a subject may be reported again, if it has
to wait. -/
def remaining? (l : Limiter) (subject : String) (now : Nat) : Option Nat :=
  ((l.entries.get? subject).map (remaining · now)).filter (· ≠ 0)

/-- The time that has to lie between the last report and the next one. -/
def requiredWait? (l : Limiter) (subject : String) : Option Nat :=
  (l.entries.get? subject).map fun e => wait e.rung

def reset (l : Limiter) (subject : String) : Limiter :=
  ⟨l.entries.erase subject⟩

/-- Subjects that have not failed for at least `ttl` are forgotten. -/
def purge (l : Limiter) (now ttl : Nat) : Limiter :=
  ⟨l.entries.filter fun _ e => decide (now - e.lastSeen < ttl)⟩

def size (l : Limiter) : Nat :=
  l.entries.size

end Limiter

end PortForwarding
