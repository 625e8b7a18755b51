import PortForwarding.Pass.Reconcile
import PortForwarding.Plan.Drift

/-! # A pass against drift

From time to time a pass goes through all managed Services and mends what has come
apart on the router. One listing of the router serves to find the Services that
need it; such a Service is looked at again under its lock, against a new listing,
before anything is done. What fails for one Service leaves the others alone. The
signal to stop ends the pass between two Services, or with the plan that it halts.
-/

namespace PortForwarding

open Script

/-! ## The result -/

/-- What a pass did for one Service. -/
inductive Visit where
  /-- What the Service asks for cannot be met. -/
  | invalid
  /-- Nothing had come apart, or no more when it was looked at again. -/
  | calm
  /-- The router could not be listed again. -/
  | unlisted
  /-- Everything was mended by a plan of so many operations. -/
  | corrected (operations : Nat)
  /-- The plan of so many operations was not carried out. -/
  | halted (operations : Nat) (halt : Halt)
  deriving DecidableEq, Repr

namespace Visit

def isDrifted : Visit → Bool
  | .corrected _ | .halted _ _ => true
  | _ => false

def isCorrected : Visit → Bool
  | .corrected _ => true
  | _ => false

def isFailed : Visit → Bool
  | .invalid | .unlisted | .halted _ _ => true
  | _ => false

def operations : Visit → Nat
  | .corrected n | .halted n _ => n
  | _ => 0

def endsPass : Visit → Bool
  | .halted _ h => h.isCancelled
  | _ => false

end Visit

/-- What a pass did, in numbers. -/
structure PassSummary where
  services : Nat
  drifted : Nat
  corrected : Nat
  failed : Nat
  /-- The number of Services that the pass did not come to. -/
  skipped : Nat
  operations : Nat
  deriving DecidableEq, Repr, Inhabited

/-- The numbers for a pass through `services` Services that made these visits. -/
def PassSummary.of (services : Nat) (visits : List Visit) : PassSummary :=
  { services := services
    drifted := visits.countP Visit.isDrifted
    corrected := visits.countP Visit.isCorrected
    failed := visits.countP Visit.isFailed
    skipped := services - visits.length
    operations := visits.foldr (fun v total => v.operations + total) 0 }

def PassSummary.toJson (s : PassSummary) : Json :=
  .obj [
    ("services", .nat s.services),
    ("drifted", .nat s.drifted),
    ("corrected", .nat s.corrected),
    ("failed", .nat s.failed),
    ("skipped", .nat s.skipped),
    ("operations", .nat s.operations)]

/-- Why a pass could not begin. -/
inductive FleetError where
  | store (error : StoreError)
  | router (error : RouterError)
  deriving DecidableEq, Repr

/-- The message for a pass that could not begin. -/
def FleetError.message : FleetError → String
  | .store e => "failed to list services: " ++ e.message
  | .router e => "failed to list router rules: " ++ e.message

namespace Fleet

/-! ## Notifications -/

/-- The subject under which the limiter knows the drift of a Service. -/
def subject (key : ServiceKey) : String :=
  "drift:" ++ key.text

def note (severity : Severity) (reason message : String) (data : Json) :
    Notification :=
  { severity := severity, reason := reason, action := EventAction.driftCorrection
    message := message, data := data }

def detectedNote (drift : Drift) : Notification :=
  note .warning EventReason.driftDetected
    ("Drift detected: " ++ Text.showNat drift.missing.length ++ " missing, "
      ++ Text.showNat drift.wrong.length ++ " wrong, " ++
        Text.showNat drift.extra.length ++ " extra")
    drift.summary

def countKind (kind : OperationKind) (plan : List Operation) : Nat :=
  plan.countP fun op => op.kind == kind

def correctedNote (plan : List Operation) : Notification :=
  note .normal EventReason.driftCorrected
    ("Drift corrected with " ++ Text.showNat plan.length ++ " operation(s)")
    (.obj [
      ("created", .nat (countKind .create plan)),
      ("updated", .nat (countKind .update plan)),
      ("deleted", .nat (countKind .delete plan))])

/-- The notification of a plan that was not carried out. -/
def haltedNote (halt : Halt) : Notification :=
  note .warning EventReason.operationFailed ("Drift correction failed: " ++ halt.message)
    (.obj [
      ("failed_operations",
        .arr ((halt.failure?.map fun f => f.1.summary.toJson).toList)),
      ("rolled_back", .nat halt.rolledBack.length),
      ("rollback_failed", .bool halt.rollbackFailed)])

/-! ## One Service -/

/-- The plan for drift is carried out and told. -/
def correct (drift : Drift) : Script Visit := do
  let plan := drift.correctionPlan
  publish drift.reference (detectedNote drift)
  match ← (Plan.execute plan).run with
  | .ok () =>
    memory (.forget (subject drift.service))
    publish drift.reference (correctedNote plan)
    return .corrected plan.length
  | .error halt =>
    let decision ← memory (.observe (subject drift.service) halt.message)
    if decision.surface then publish drift.reference (haltedNote halt)
    return .halted plan.length halt

/-- A Service in which something had come apart is looked at again, and mended. -/
def revisit (view : ServiceView) (desired : List DesiredRule) : Script Visit := do
  match ← listRules.run with
  | .error _ => return .unlisted
  | .ok fresh =>
    let drift := Drift.compare view.key view.reference desired fresh
    if drift.any then correct drift else return .calm

/-- A Service is compared with the listing `rules`, and looked at again under its
lock if something has come apart. -/
def visit (defaults : RuleDefaults) (rules : List RouterRule) (view : ServiceView) :
    Script Visit := do
  match ← (Reconcile.claimDesired view defaults).run with
  | .error e =>
    let _ ← memory (.observe (subject view.key) e.message)
    return .invalid
  | .ok desired =>
    if (Drift.compare view.key view.reference desired rules).any then
      locked view.key (revisit view desired)
    else return .calm

/-! ## All Services -/

/-- The Services are visited in order, until the signal to stop. -/
def visitAll (defaults : RuleDefaults) (rules : List RouterRule) :
    List ServiceView → Script (List Visit)
  | [] => return []
  | view :: views => do
    if ← isCancelled then return []
    let v ← visit defaults rules view
    if v.endsPass then return [v]
    return v :: (← visitAll defaults rules views)

/-- Whether a Service is looked after in passes against drift. -/
def isManaged (view : ServiceView) : Bool :=
  view.hasFinalizer && !view.deleting && view.qualifies

/-- The Services that are looked after, in order of the listing. -/
def managed (services : List ServiceObject) : List ServiceView :=
  (services.filterMap fun s => (ServiceView.of? s).toOption).filter isManaged

/-- A pass through all managed Services. -/
def pass (defaults : RuleDefaults) : ExceptT FleetError Script PassSummary := do
  let services ← listServices.adapt FleetError.store
  let rules ← listRules.adapt FleetError.router
  let views := managed services
  let visits ← visitAll defaults rules views
  return .of views.length visits

end Fleet

end PortForwarding
