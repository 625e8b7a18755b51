import PortForwarding.Pass.Fleet
import PortForwarding.Simulation.World

/-! # Reports on a world

What scripts have done in a world, and how it stands, as JSON. Each part of a
report is left out if there is nothing to say.
-/

namespace PortForwarding

/-- The settings of a rule as members of an object. -/
def RuleSpec.members (s : RuleSpec) : List (String × Json) :=
  [("name", .str s.name),
    ("key", .str s.slot.text),
    ("destination", .str s.destination.text),
    ("enabled", .bool s.enabled),
    ("interface", .str s.interface),
    ("source", Json.orNull (s.source.map .str))]

def RuleSpec.toJson (s : RuleSpec) : Json :=
  .obj s.members

def RouterRule.toJson (r : RouterRule) : Json :=
  .obj (("id", .str r.id) :: r.spec.members)

/-- A notification as JSON, under the name of the object it is about. -/
def Notification.toJson (n : Notification) (object : ObjectReference) : Json :=
  .obj [
    ("object", .str (object.name.getD "")),
    ("type", .str n.severity.text),
    ("reason", .str n.reason),
    ("action", .str n.action),
    ("message", .str n.message),
    ("data", n.data)]

namespace Simulation

namespace Report

def ending {α : Type} (r : Except RouterError α) (result : α → Json) :
    List (String × Json) :=
  match r with
  | .ok a => [("ok", result a)]
  | .error e => [("err", .str e.message)]

def call (c : RouterCall) (r : c.Reply) : List (String × Json) :=
  match c with
  | .list => ("call", .str "list") :: ending r fun rules => .nat rules.length
  | .add spec =>
    [("call", .str "add"), ("rule", spec.toJson)] ++ ending r fun rule => .str rule.id
  | .update id spec =>
    [("call", .str "update"), ("id", .str id), ("rule", spec.toJson)]
      ++ ending r fun rule => .str rule.id
  | .remove id =>
      [("call", .str "remove"), ("id", .str id)] ++ ending r fun _ => .bool true
  | .ready => ("call", .str "ready") :: ending r .bool

/-- A request to the Kubernetes API and the status of its answer, if there
was one. -/
def request? (c : StoreCall) (r : c.Reply) : Option (List (String × Json)) := do
  let path ← c.path?
  let status ← c.status? r
  return [("method", .str c.method), ("path", .str path)]
    ++ (c.body.map fun b => ("body", b)).toList ++ [("status", .nat status)]

/-- Members with the seconds since the start, in a report that gives them. -/
def stamped (timed : Bool) (e : LogEntry) (members : List (String × Json)) : Json :=
  .obj (if timed then members ++ [("t", .nat e.seconds)] else members)

def calls (timed : Bool) (log : List LogEntry) : List Json :=
  log.filterMap fun e =>
    match e.exchange with
    | ⟨.router c, r⟩ => some (stamped timed e (call c r))
    | _ => none

/-- The requests to the Kubernetes API in a log. -/
def requests (timed : Bool) (log : List LogEntry) : List Json :=
  log.filterMap fun e =>
    match e.exchange with
    | ⟨.store c, r⟩ => (request? c r).map (stamped timed e)
    | _ => none

def events (log : List LogEntry) : List Json :=
  log.filterMap fun e =>
    match e.exchange with
    | ⟨.publish object n, _⟩ => some (n.toJson object)
    | _ => none

def isEmpty : Json → Bool
  | .null | .arr [] | .obj [] => true
  | _ => false

def claims (r : Reservations) (keys : List ServiceKey) : List (String × Json) :=
  (keys.map fun k => (k.text, Json.arr ((r.portsOf k).map fun p => .nat p.toNat))).filter
    fun m => !isEmpty m.2

/-- The seconds that failures of Services have to wait before they are
told again. -/
def waits (l : Limiter) (keys : List ServiceKey) : List (String × Json) :=
  (keys.flatMap fun k => [k.text, Fleet.subject k]).filterMap fun subject =>
    (l.requiredWait? subject).map fun wait =>
      (subject, Json.nat (wait / Limiter.seconds 1))

/-- The attempts of Services that have failed in a row. -/
def retries (r : RetryCounts) (keys : List ServiceKey) : List (String × Json) :=
  (keys.filter fun k => r.get k ≠ 0).map fun k => (k.text, Json.nat (r.get k))

end Report

/-- A report on what has happened since the last one, with a result and with what
is known of the Services `keys`, and the world with an empty log. -/
def World.report (w : World) (timed : Bool) (keys : List ServiceKey) (result : Json) :
    Json × World :=
  let (log, w) := w.takeLog
  let members : List (String × Json) := [
    ("result", result),
    ("calls", .arr (Report.calls timed log)),
    ("requests", .arr (Report.requests timed log)),
    ("events", .arr (Report.events log)),
    ("rules", .arr (w.router.rules.map RouterRule.toJson)),
    ("claims", .obj (Report.claims w.memory.reservations keys)),
    ("limiter", .obj (Report.waits w.memory.limiter keys)),
    ("retries", .obj (Report.retries w.memory.retries keys))]
  (.obj (members.filter fun m => !Report.isEmpty m.2), w)

end Simulation

end PortForwarding
