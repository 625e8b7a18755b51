import PortForwarding.Json.Parser
import PortForwarding.Json.Printer
import PortForwarding.Json.Row
import PortForwarding.Time.Reader

/-! # The record of a cleanup

How far the cleanup of a Service has come, noted on the Service itself so that the
number of attempts survives a restart. The record has a version; one that is
newer, or unreadable, counts as none, and the cleanup starts afresh.
-/

namespace PortForwarding

open Json

/-- How a cleanup stands. -/
inductive CleanupStatus where
  | pending
  | inProgress
  | completed
  | failedMaxRetries
  deriving DecidableEq, Repr, Inhabited

namespace CleanupStatus

def text : CleanupStatus → String
  | .pending => "pending"
  | .inProgress => "in_progress"
  | .completed => "completed"
  | .failedMaxRetries => "failed_max_retries"

def all : List CleanupStatus :=
  [.pending, .inProgress, .completed, .failedMaxRetries]

end CleanupStatus

/-- How far a cleanup has come. -/
structure CleanupRecord where
  version : UInt32
  attempts : UInt32
  status : CleanupStatus
  lastError : Option String
  lastAttempt : Option Timestamp
  deriving DecidableEq, Repr

namespace CleanupRecord

/-- The version that is written, and the newest that is read. -/
def currentVersion : UInt32 := 1

/-- The record of a cleanup that has not begun. -/
def fresh : CleanupRecord :=
  { version := currentVersion, attempts := 0, status := .pending, lastError := none
    lastAttempt := none }

instance : Inhabited CleanupRecord := ⟨fresh⟩

/-- The record as JSON; what is absent is left out. -/
def toJson (r : CleanupRecord) : Json :=
  .obj ([
    ("version", .nat r.version.toNat),
    ("attempts", .nat r.attempts.toNat),
    ("status", .str r.status.text)]
    ++ (r.lastError.map fun s => ("last_error", Json.str s)).toList
    ++ (r.lastAttempt.map fun t => ("last_attempt", Json.str t.text)).toList)

/-- The record that JSON describes, of any version. -/
def ofJson (j : Json) : Option CleanupRecord :=
  match j.row ["version", "attempts", "status", "last_error", "last_attempt"] with
  | some [version, attempts, status, lastError, lastAttempt] => do
    return {
      version := ← required word32? version
      attempts := ← defaulted 0 word32? attempts
      status := ← defaulted .pending (caseOf? CleanupStatus.text CleanupStatus.all) status
      lastError := ← optional text? lastError
      lastAttempt := ← optional (fun j => j.text?.bind Timestamp.parse) lastAttempt }
  | _ => none

/-- The text of the record, in the current version. -/
def encode (r : CleanupRecord) : String :=
  ({ r with version := currentVersion } : CleanupRecord).toJson.text

def decode (text : Option String) : CleanupRecord :=
  match text.bind fun s => (Json.parse s).bind ofJson with
  | none => fresh
  | some r => if r.version ≤ currentVersion then r else fresh

/-- The time to wait before the next attempt: after a failed one, what is left of
the interval. -/
def retryWait (r : CleanupRecord) (interval : Nat) (now : Timestamp) : Option Nat :=
  match r.lastError, r.lastAttempt with
  | some _, some last =>
    let elapsed := now.elapsed last
    if elapsed < interval then some (interval - elapsed) else none
  | _, _ => none

end CleanupRecord

end PortForwarding
