import PortForwarding.Backoff
import PortForwarding.Pass.Cleanup
import PortForwarding.Plan.Execution
import PortForwarding.Record.Failure

/-! # Why a pass for a Service failed

The causes of a failed pass, with the message, the class under which the failure
is noted on the Service, and the kind that decides whether the pass is tried
again: what the Service asks for, and what the router will never accept, waits for
a change.
-/

namespace PortForwarding

/-- Why a pass for a Service failed. -/
inductive PassFailure where
  /-- The Service has no view. -/
  | view (error : ViewError)
  /-- What the Service asks for cannot be met. -/
  | desired (error : DesiredError)
  /-- The router could not be listed. -/
  | router (error : RouterError)
  /-- The plan was not carried out. -/
  | execution (halt : Halt)
  /-- The cleanup could not be noted on the Service. -/
  | cleanup (error : StoreError)
  /-- The Service could not be read or written. -/
  | store (error : StoreError)
  deriving DecidableEq, Repr

namespace PassFailure

def message : PassFailure → String
  | .view e => "Invalid Service: " ++ e.message
  | .desired e => e.message
  | .router e => "Failed to list router rules: " ++ e.message
  | .execution h => h.message
  | .cleanup e => "Cleanup failed: " ++ Cleanup.failureMessage e
  | .store e => "Failed to update Service: " ++ e.message

/-- Whether the router may be left with part of a plan. -/
def rollbackFailed : PassFailure → Bool
  | .execution h => h.rollbackFailed
  | _ => false

/-- The class under which a failure is noted. -/
def errorClass : PassFailure → ErrorClass
  | .view _ => .validation
  | .desired e => if e.isConflict then .portConflict else .validation
  | .router _ => .routerOperation
  | .execution h => if h.rollbackFailed then .rollback else .routerOperation
  | .cleanup _ => .cleanup
  | .store _ => .store

def kind : PassFailure → ErrorKind
  | .view _ | .desired _ => .permanent
  | .router e => if e.isTransient then .transient else .permanent
  | .execution h => if h.rollbackFailed || h.isTransient then .transient else .permanent
  | .cleanup _ | .store _ => .transient

/-- The summaries of the operations that failed. -/
def failedOperations : PassFailure → List OperationSummary
  | .execution h => (h.failure?.map fun f => f.1.summary).toList
  | _ => []

end PassFailure

end PortForwarding
