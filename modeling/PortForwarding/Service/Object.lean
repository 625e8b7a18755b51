import PortForwarding.Json.Basic
import PortForwarding.Rule

/-! # Service objects

The part of a Kubernetes Service that matters here, and how it is read from the
object's JSON form. Anything may be missing; what is missing and what is null are
the same.
-/

namespace PortForwarding

/-- A port in the specification of a Service. -/
structure PortSpec where
  name : Option String
  port : Int
  protocol : Option String
  deriving DecidableEq, Repr, Inhabited

/-- A Service as the Kubernetes API tells it. -/
structure ServiceObject where
  «namespace» : Option String
  name : Option String
  uid : Option String
  annotations : List (String × String)
  finalizers : List String
  /-- Whether the Service is marked for deletion. -/
  deleting : Bool
  ports : List PortSpec
  /-- The addresses at which load balancers let traffic in, where they have one. -/
  ingress : List (Option String)
  deriving DecidableEq, Repr, Inhabited

namespace ServiceObject

open Json

def portOfJson (j : Json) : PortSpec :=
  { name := (j.present? "name").bind text?
    port := ((j.present? "port").bind int?).getD 0
    protocol := (j.present? "protocol").bind text? }

def listAt (path : List String) (j : Json) : List Json :=
  ((j.at? path).bind items?).getD []

/-- The text members of the object at `path`. -/
def textsAt (path : List String) (j : Json) : List (String × String) :=
  (((j.at? path).map members).getD []).filterMap fun (name, v) => v.text?.map (name, ·)

def ofJson (j : Json) : ServiceObject :=
  { «namespace» := (j.at? ["metadata", "namespace"]).bind text?
    name := (j.at? ["metadata", "name"]).bind text?
    uid := (j.at? ["metadata", "uid"]).bind text?
    annotations := textsAt ["metadata", "annotations"] j
    finalizers := (listAt ["metadata", "finalizers"] j).filterMap text?
    deleting := (j.at? ["metadata", "deletionTimestamp"]).isSome
    ports := (listAt ["spec", "ports"] j).map portOfJson
    ingress := (listAt ["status", "loadBalancer", "ingress"] j).map fun i =>
      (i.present? "ip").bind text? }

def annotation? (o : ServiceObject) (name : String) : Option String :=
  o.annotations.lookup name

/-- The key of an object, empty where a part of it is missing. -/
def key (o : ServiceObject) : ServiceKey :=
  ⟨o.namespace.getD "", o.name.getD ""⟩

end ServiceObject

/-! ## References -/

/-- A reference to an object. The reference to a Service leaves the version of the
object and the field open. -/
structure ObjectReference where
  apiVersion : Option String
  kind : Option String
  name : Option String
  «namespace» : Option String
  uid : Option String
  resourceVersion : Option String
  fieldPath : Option String
  deriving DecidableEq, Repr, Inhabited

def ServiceObject.reference (o : ServiceObject) : ObjectReference :=
  { apiVersion := some "v1"
    kind := some "Service"
    name := o.name
    «namespace» := o.namespace
    uid := o.uid
    resourceVersion := none
    fieldPath := none }

end PortForwarding
