import PortForwarding.Rule
import PortForwarding.Table

/-! # Retrying

A pass that fails is tried again after a delay that doubles from attempt to
attempt, and never while the failure is still kept from being reported. After ten
attempts, and after a failure that trying again cannot mend, the operator waits
for the Service to change. The count of attempts has no largest value; from the
tenth on it makes no difference.
-/

namespace PortForwarding

/-- What happens after a pass. Times are in nanoseconds. -/
inductive Action where
  | awaitChange
  | requeue (after : Nat)
  deriving DecidableEq, Repr, Inhabited

/-- Whether trying again can mend a failure. -/
inductive ErrorKind where
  | transient
  | permanent
  deriving DecidableEq, Repr, Inhabited

namespace Backoff

/-- The number of attempts after which the operator waits. -/
def maxAttempts : Nat := 10

/-- The delay after the first attempt, in seconds. -/
def baseDelay : Nat := 5

/-- The longest delay, in seconds. -/
def maxDelay : Nat := 3600

/-- The delay after an attempt in seconds; none to wait for a change. -/
def delay (attempt : Nat) (kind : ErrorKind) : Option Nat :=
  match kind with
  | .permanent => none
  | .transient =>
    if attempt ≥ maxAttempts then none
    else some (min (baseDelay * Nat.pow 2 (attempt - 1)) maxDelay)

/-- A time in whole seconds, rounded up. -/
def ceilSeconds (nanos : Nat) : Nat :=
  (nanos + 999999999) / 1000000000

/-- What happens after a failed attempt, when the failure stays suppressed
for `floor`. -/
def action (attempt : Nat) (kind : ErrorKind) (floor : Option Nat) : Action :=
  match delay attempt kind with
  | none => .awaitChange
  | some seconds =>
    let seconds := match floor with
      | none => seconds
      | some f => max seconds (ceilSeconds f)
    .requeue (seconds * 1000000000)

end Backoff

/-- The number of attempts that have failed in a row, for each Service. -/
structure RetryCounts where
  counts : Table ServiceKey Nat
  deriving DecidableEq, Repr, Inhabited

namespace RetryCounts

def empty : RetryCounts := ⟨.empty⟩

/-- The number of failed attempts of a Service. -/
def get (r : RetryCounts) (key : ServiceKey) : Nat :=
  (r.counts.get? key).getD 0

def increment (r : RetryCounts) (key : ServiceKey) : RetryCounts :=
  ⟨r.counts.set key (r.get key + 1)⟩

def reset (r : RetryCounts) (key : ServiceKey) : RetryCounts :=
  ⟨r.counts.erase key⟩

end RetryCounts

end PortForwarding
