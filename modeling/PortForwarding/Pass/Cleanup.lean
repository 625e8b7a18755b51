import PortForwarding.Settings
import PortForwarding.Record.Cleanup
import PortForwarding.Service.Marking
import PortForwarding.Service.View

/-! # Cleaning up after a Service

A Service that is being deleted is held back by the operator's finalizer until the
rules that it owns are gone. Each pass is one attempt; the record of the cleanup
is written to the Service before the router is called, so that no attempt goes
uncounted. After a failed attempt the next one waits for the interval to pass.
When all attempts are used up the Service is let go with its rules still there: a
broken router never blocks a deletion for ever.
-/

namespace PortForwarding

open Script

/-- How a cleanup pass ended. -/
inductive CleanupOutcome where
  /-- The owned rules and the finalizer are gone. -/
  | completed (removed : Nat)
  /-- The next attempt is due after a time, in nanoseconds. -/
  | retry (after : Nat) (attempts : UInt32) (error : String)
  /-- The finalizer is gone, although the rules may be there. -/
  | forced (attempts : UInt32)
  deriving DecidableEq, Repr

/-- The time between two attempts, in nanoseconds. -/
def CleanupSettings.retryInterval (s : CleanupSettings) : Nat :=
  s.retryIntervalSeconds.toNat * 1000000000

namespace Cleanup

/-- The record of the cleanup is written to the Service. -/
def persist (view : ServiceView) (record : CleanupRecord) :
    ExceptT StoreError Script Unit :=
  Mark.annotate view.key [(Mark.cleanupState, some record.encode)]

/-! ## Removing the rules -/

/-- Rules are removed, as many as possible: the number of those that are gone, and a
complaint about each of the others. -/
def removeAll : List RouterRule → Script (Nat × List String)
  | [] => return (0, [])
  | r :: rs => do
    match ← (removeRule r.id).run with
    | .ok () | .error (.notFound _) =>
      let (removed, complaints) ← removeAll rs
      return (removed + 1, complaints)
    | .error e =>
      let (removed, complaints) ← removeAll rs
      return (removed, (r.spec.name ++ ": " ++ e.message) :: complaints)

/-- The complaint about rules that could not be removed. -/
def complaint (removed : Nat) (complaints : List String) : String :=
  Text.showNat complaints.length ++ " of " ++ Text.showNat (removed + complaints.length)
    ++ " rule(s) not removed: " ++ String.intercalate "; " complaints

/-- The rules that a Service owns are removed: how many they were. -/
def removeOwned (key : ServiceKey) : ExceptT String Script Nat := do
  let rules ← listRules.adapt fun e => "listing router rules: " ++ e.message
  let (removed, complaints) ← removeAll (ownedRules key rules)
  if complaints.isEmpty then return removed
  throw (complaint removed complaints)

/-! ## Letting the Service go -/

def completeNote (removed : Nat) : Notification :=
  { severity := .normal
    reason := EventReason.cleanupComplete
    action := EventAction.cleanup
    message := "Removed " ++ Text.showNat removed ++ " port-forward rule(s)"
    data := .obj [("removed", .nat removed)] }

/-- The notification of a cleanup that has been given up. -/
def forcedNote (record : CleanupRecord) : Notification :=
  { severity := .warning
    reason := EventReason.cleanupFailed
    action := EventAction.cleanup
    message := "Cleanup failed after " ++ Text.showNat record.attempts.toNat
      ++ " attempt(s); router rules may need manual removal: "
      ++ record.lastError.getD "unknown error"
    data := .obj [
      ("attempts", .nat record.attempts.toNat),
      ("last_error", Json.orNull (record.lastError.map .str))] }

/-- A Service whose rules are gone is let go. -/
def complete (view : ServiceView) (removed : Nat) :
    ExceptT StoreError Script Unit := do
  Mark.annotate view.key (Mark.operatorState.map fun name => (name, none))
  Mark.removeFinalizer view.key
  memory (.releaseAll view.key)
  publish view.reference (completeNote removed)

/-- A Service whose attempts are used up is let go. -/
def force (view : ServiceView) (record : CleanupRecord) :
    ExceptT StoreError Script CleanupOutcome := do
  publish view.reference (forcedNote record)
  persist view { record with status := .failedMaxRetries }
  Mark.removeFinalizer view.key
  memory (.releaseAll view.key)
  return .forced record.attempts

/-! ## A pass -/

/-- The message for a cleanup that could not be noted on the Service. -/
def failureMessage (e : StoreError) : String :=
  "Failed to persist cleanup state: " ++ e.message

/-- The record of a cleanup when another attempt begins. -/
def started (record : CleanupRecord) (time : Timestamp) : CleanupRecord :=
  { record with
    attempts := record.attempts + 1, status := .inProgress, lastAttempt := some time }

def attempt (settings : CleanupSettings) (view : ServiceView)
    (record : CleanupRecord) :
    ExceptT StoreError Script CleanupOutcome := do
  let record := started record (← now)
  persist view record
  match ← (removeOwned view.key).run with
  | .ok removed =>
    complete view removed
    return .completed removed
  | .error error =>
    persist view { record with lastError := some error }
    return .retry settings.retryInterval record.attempts error

/-- One cleanup pass for a Service that is being deleted. -/
def pass (settings : CleanupSettings) (view : ServiceView) :
    ExceptT StoreError Script CleanupOutcome := do
  let record := CleanupRecord.decode (view.annotation? Mark.cleanupState)
  match record.retryWait settings.retryInterval (← now) with
  | some after => return .retry after record.attempts (record.lastError.getD "")
  | none =>
    if record.attempts ≥ settings.maxRetries then force view record
    else attempt settings view record

end Cleanup

end PortForwarding
