import PortForwarding.Http.Target
import PortForwarding.Json.Basic
import PortForwarding.Service.Object
import PortForwarding.Text.Clip

/-! # Notifications

What the operator tells about a Service. A notification is sent as an event of
Kubernetes, whose note holds no more than `Notification.noteLimit` bytes; nobody
waits for it to arrive.
-/

namespace PortForwarding

/-- Whether a notification asks for attention. -/
inductive Severity where
  | normal
  | warning
  deriving DecidableEq, Repr, Inhabited

def Severity.text : Severity → String
  | .normal => "Normal"
  | .warning => "Warning"

/-- Something to tell about a Service. -/
structure Notification where
  severity : Severity
  reason : String
  action : String
  message : String
  data : Json
  deriving BEq, Repr, Inhabited

/-! ## Reasons and actions -/

namespace EventReason

def created : String := "PortForwardCreated"

def updated : String := "PortForwardUpdated"

def deleted : String := "PortForwardDeleted"

def takenOver : String := "OwnershipTakeover"

def operationFailed : String := "OperationFailed"

def driftDetected : String := "DriftDetected"

def driftCorrected : String := "DriftCorrected"

def cleanupComplete : String := "CleanupComplete"

/-- A deleted Service was let go although its rules may still be there. -/
def cleanupFailed : String := "CleanupFailedMaxRetries"

def validationFailed : String := "ValidationFailed"

end EventReason

namespace EventAction

def reconcile : String := "Reconcile"

def driftCorrection : String := "DriftCorrection"

def cleanup : String := "Cleanup"

end EventAction

/-! ## Events -/

namespace ObjectReference

/-- A reference as JSON; what is open is left out. -/
def toJson (r : ObjectReference) : Json :=
  .obj (part "apiVersion" r.apiVersion ++ part "kind" r.kind ++ part "name" r.name
    ++ part "namespace" r.namespace ++ part "uid" r.uid
    ++ part "resourceVersion" r.resourceVersion ++ part "fieldPath" r.fieldPath)
where
  part (name : String) (value : Option String) : List (String × Json) :=
    (value.map fun v => (name, Json.str v)).toList

def ofJson (j : Json) : ObjectReference :=
  { apiVersion := part "apiVersion", kind := part "kind", name := part "name"
    «namespace» := part "namespace", uid := part "uid"
    resourceVersion := part "resourceVersion", fieldPath := part "fieldPath" }
where
  part (name : String) : Option String :=
    (j.present? name).bind Json.text?

end ObjectReference

namespace Notification

/-- The number of bytes that the note of an event may have. -/
def noteLimit : Nat := 1024

/-- The note of the event: as much of the message as fits. A place to cut it is
always found. -/
def note (n : Notification) : String :=
  (Text.clip? noteLimit n.message).getD ""

/-- The path to which the event about an object is sent, if the name of its
namespace can stand in a target. -/
def eventPath? (object : ObjectReference) : Option String :=
  Target.path?
    ("/apis/events.k8s.io/v1/namespaces/" ++ object.namespace.getD "default" ++ "/events")

/-- The event that tells a notification about an object. -/
def event (n : Notification) (object : ObjectReference) : Json :=
  .obj [
    ("type", .str n.severity.text),
    ("reason", .str n.reason),
    ("note", .str n.note),
    ("action", .str n.action),
    ("regarding", object.toJson),
    ("reportingController", .str "portforward-operator")]

end Notification

end PortForwarding
