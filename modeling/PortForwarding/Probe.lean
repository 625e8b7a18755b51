import PortForwarding.Http.Target
import PortForwarding.Script

/-! # Probes

Kubernetes asks over HTTP whether the operator is alive and whether it is ready.
It is alive while it answers at all, and ready when it has started and the router
takes calls. What is not a request in the first place is a bad one.
-/

namespace PortForwarding.Probe

open Script

def isRead (method : String) : Bool :=
  method == "GET" || method == "HEAD"

def isReadyNow (started : Bool) : Script Bool := do
  if !started then return false
  match ← isReady.run with
  | .ok ready => return ready
  | .error _ => return false

def isMethodChar (c : Char) : Bool :=
  c.isAlphanum || "!#$%&'*+-.^_\x60|~".toList.contains c

def isMethod (s : String) : Bool :=
  !s.isEmpty && s.toList.all isMethodChar

def requested? (method target : String) : Option String :=
  if isMethod method && target.toList.all Target.isVisible then
    Target.path? target
  else none

/-- The status with which a request for a path is answered. -/
def answerFor (started : Bool) (method path : String) : Script Nat := do
  if path == "/healthz" then
    return if isRead method then 200 else 405
  else if path == "/readyz" then
    if !isRead method then return 405
    return if ← isReadyNow started then 200 else 503
  else return 404

/-- The status with which a probe is answered. -/
def answer (started : Bool) (method target : String) : Script Nat :=
  match requested? method target with
  | some path => answerFor started method path
  | none => return 400

end PortForwarding.Probe
