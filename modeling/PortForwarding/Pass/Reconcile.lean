import PortForwarding.Pass.Cleanup
import PortForwarding.Pass.Failure
import PortForwarding.Plan.Adjustment
import PortForwarding.Record.Change

/-! # A pass for one Service

Whenever a Service changes, a pass brings the router into line with it. What a
pass does depends on the Service alone:

- one that is being deleted is cleaned up after, if it carries the finalizer;
- one that asks for nothing is let go with its rules still there, if it carries
  the finalizer;
- one that asks for ports gets the finalizer first, and nothing else in that pass;
- one that asks for ports and carries the finalizer is converged (`converge`).

A failure of the last kind is told and noted on the Service, as often as the
limiter lets it through. After a rollback that failed it is always told and never
noted.
-/

namespace PortForwarding.Reconcile

open Script

/-! ## Letting go -/

/-- Earlier failures of a Service are forgotten. -/
def forget (key : ServiceKey) : Script Unit := do
  memory (.forget key.text)
  memory (.resetRetries key)

/-- The changes that take the operator's annotations off a Service, as far as they
are there. -/
def clearedState (view : ServiceView) : List (String × Option String) :=
  (Mark.operatorState.filter fun name => (view.annotation? name).isSome).map
    fun name => (name, none)

/-- A Service is not managed any more; its rules stay. -/
def letGo (view : ServiceView) : ExceptT StoreError Script Unit := do
  Mark.annotate view.key (clearedState view)
  Mark.removeFinalizer view.key
  memory (.releaseAll view.key)
  forget view.key

/-- A pass for a Service that is being deleted. -/
def cleanUp (settings : CleanupSettings) (view : ServiceView) :
    ExceptT PassFailure Script Action := do
  if view.hasFinalizer then
    lockedTry view.key do
      match ← (Cleanup.pass settings view).adapt PassFailure.cleanup with
      | .retry after _ _ => return .requeue after
      | .completed _ | .forced _ =>
        forget view.key
        return .awaitChange
  else
    memory (.releaseAll view.key)
    return .awaitChange

/-! ## Converging -/

/-- The reason under which a carried out operation is told. -/
def appliedReason (op : Operation) : String :=
  match op.reason, op.kind with
  | .ownershipTakeover, _ => EventReason.takenOver
  | _, .create => EventReason.created
  | _, .update => EventReason.updated
  | _, .delete => EventReason.deleted

/-- The notification of a carried out operation. -/
def appliedNote (op : Operation) : Notification :=
  { severity := .normal
    reason := appliedReason op
    action := EventAction.reconcile
    message := op.describe
    data := op.summary.toJson }

/-- Every operation of a plan is told, in order. -/
def announce (view : ServiceView) : List Operation → Script Unit
  | [] => return
  | op :: ops => do
    publish view.reference (appliedNote op)
    announce view ops

/-- The plan for a Service against the router as it is. Takeovers are checked
against a second listing, which the plan then starts from. -/
def planAgainstRouter (key : ServiceKey) (desired : List DesiredRule) :
    ExceptT RouterError Script (List Operation) := do
  let rules ← listRules
  match Takeover.detect key desired rules with
  | [] => return planFor key desired rules []
  | takeovers =>
    let fresh ← listRules
    return planFor key desired fresh (Takeover.revalidate takeovers fresh)

/-- The record of changes that the Service carries. -/
def previousChange (view : ServiceView) : Option ChangeRecord :=
  (view.annotation? Mark.changeContext).bind ChangeRecord.decode

/-- What a successful pass writes on the Service: an earlier failure goes, and the
record of changes comes if there was none or anything had changed. -/
def successMarks (view : ServiceView) : List (String × Option String) :=
  let record := ChangeRecord.compute (previousChange view) view
  (if (view.annotation? Mark.errorContext).isSome then [(Mark.errorContext, none)]
    else [])
  ++ (if (previousChange view).isNone || record.hasChanges then
      [(Mark.changeContext, some record.encode)] else [])

/-- The part of a pass that is carried out under the lock of the Service. -/
def convergeLocked (view : ServiceView) (desired : List DesiredRule) :
    ExceptT PassFailure Script Unit := do
  let plan ← (planAgainstRouter view.key desired).adapt PassFailure.router
  (Plan.execute plan).adapt PassFailure.execution
  memory (.retain view.key (Desired.externalPorts desired))
  forget view.key
  announce view plan
  (Mark.annotate view.key (successMarks view)).adapt PassFailure.store

/-- The rules that a Service wants, with their external ports reserved for it. -/
def claimDesired (view : ServiceView) (defaults : RuleDefaults) :
    ExceptT DesiredError Script (List DesiredRule) :=
  ExceptT.mk do
    match Desired.rulesFor view defaults with
    | .error e => return .error e
    | .ok rules =>
      match ← memory (.claim view.key (Desired.externalPorts rules)) with
      | .error c => return .error (.conflict c)
      | .ok () => return .ok rules

/-- The router is brought into line with a Service. -/
def converge (defaults : RuleDefaults) (view : ServiceView) :
    ExceptT PassFailure Script Unit := do
  let desired ← (claimDesired view defaults).adapt PassFailure.desired
  lockedTry view.key (convergeLocked view desired)

/-! ## Failures -/

def failureNote (failure : PassFailure) : Notification :=
  { severity := .warning
    reason := match failure.errorClass with
      | .validation | .portConflict => EventReason.validationFailed
      | _ => EventReason.operationFailed
    action := EventAction.reconcile
    message := failure.message
    data := .obj [
      ("code", .str failure.errorClass.text),
      ("failed_operations", .arr (failure.failedOperations.map OperationSummary.toJson)),
      ("rollback_failed", .bool failure.rollbackFailed)] }

/-- The record of a failed pass that has failed `failures` times since the
record before. -/
def failureRecord (view : ServiceView) (failure : PassFailure) (failures : Nat)
    (time : Timestamp) : FailureRecord :=
  let previous := (view.annotation? Mark.errorContext).bind FailureRecord.decode
  let status : ErrorStatus := match failure.kind with
    | .permanent => .rejected
    | .transient => .retrying
  FailureRecord.next previous (UInt32.ofNat (min failures 4294967295)) failure.errorClass
    failure.message status failure.failedOperations time

/-- A failed pass is told and noted on the Service. Whether the note can be
written makes no difference. -/
def recordFailure (view : ServiceView) (failure : PassFailure) : Script Unit := do
  let decision ← memory (.observe view.key.text failure.message)
  if !failure.rollbackFailed && !decision.surface then return
  publish view.reference (failureNote failure)
  if failure.rollbackFailed then return
  let record := failureRecord view failure decision.sinceSurfaced (← now)
  let _ ← (Mark.annotate view.key [(Mark.errorContext, some record.encode)]).run

/-! ## A pass -/

/-- A pass for a Service that asks for ports and carries the finalizer. -/
def managed (defaults : RuleDefaults) (view : ServiceView) :
    ExceptT PassFailure Script Action :=
  ExceptT.mk do
    match ← (converge defaults view).run with
    | .ok () => return .ok .awaitChange
    | .error failure =>
      recordFailure view failure
      return .error failure

def passFor (settings : CleanupSettings) (defaults : RuleDefaults)
    (view : ServiceView) :
    ExceptT PassFailure Script Action := do
  if view.deleting then cleanUp settings view
  else if !view.qualifies then
    if view.hasFinalizer then (letGo view).adapt PassFailure.store
    return .awaitChange
  else if !view.hasFinalizer then
    (Mark.addFinalizer view.key).adapt PassFailure.store
    return .requeue 0
  else managed defaults view

/-- A pass for a Service. -/
def pass (settings : CleanupSettings) (defaults : RuleDefaults)
    (service : ServiceObject) :
    ExceptT PassFailure Script Action := do
  match ServiceView.of? service with
  | .error e => throw (.view e)
  | .ok view => passFor settings defaults view

/-- What happens after a failed pass: another attempt is counted, and the next one
waits at least as long as the failure is kept from being told. -/
def afterFailure (service : ServiceObject) (failure : PassFailure) :
    Script Action := do
  let attempt ← memory (.countRetry service.key)
  let floor ← memory (.remaining service.key.text)
  return Backoff.action attempt failure.kind floor

end PortForwarding.Reconcile
