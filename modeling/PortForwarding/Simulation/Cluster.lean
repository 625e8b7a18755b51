import PortForwarding.Script

/-! # A cluster in memory

The Services of a cluster as JSON documents under their keys. A call about a
Service finds it by the path of its request. A change is a merge patch. Calls can
be made to fail by their method for a number of times.
-/

namespace PortForwarding.Simulation

/-- A number of calls of one method that fail with a status. -/
structure StoreFault where
  method : String
  status : Nat
  times : Nat
  deriving DecidableEq, Repr, Inhabited

/-- The Services of a cluster. -/
structure Cluster where
  services : Table ServiceKey Json
  faults : List StoreFault

namespace Cluster

def empty : Cluster := ⟨.empty, []⟩

instance : Inhabited Cluster := ⟨empty⟩

def refusal (status : Nat) : StoreError :=
  .refused status "refused"

/-- The faults after a call of a method, and the status of the fault that it met. -/
def takeFault (method : String) : List StoreFault → Option Nat × List StoreFault
  | [] => (none, [])
  | f :: fs =>
    if f.method = method ∧ f.times ≠ 0 then
      (some f.status, { f with times := f.times - 1 } :: fs)
    else
      let (status, fs) := takeFault method fs
      (status, f :: fs)

/-- The Services in order of their keys. -/
def sorted (c : Cluster) : List (ServiceKey × Json) :=
  c.services.entries.mergeSort fun a b => decide (a.1.text ≤ b.1.text)

/-- The Service to which a path leads, with its key. -/
def find? (c : Cluster) (path : String) : Option (ServiceKey × Json) :=
  c.services.entries.find? fun e => StoreCall.servicePath e.1 == path

/-- The answer of a cluster without faults to a call with a path. -/
def perform (c : Cluster) (call : StoreCall) (path : String) : call.Reply × Cluster :=
  match call with
  | .list => (.ok (c.sorted.map fun e => ServiceObject.ofJson e.2), c)
  | .get _ =>
    match c.find? path with
    | some (_, object) => (.ok (.ofJson object), c)
    | none => (.error (refusal 404), c)
  | .patch _ change =>
    match c.find? path with
    | some (key, object) =>
      (.ok (), { c with services := c.services.set key (object.merge change.toJson) })
    | none => (.error (refusal 404), c)

/-- The answer to a call, and the cluster after it. A call without a path does not
get as far as the cluster. -/
def answer (c : Cluster) (call : StoreCall) : call.Reply × Cluster :=
  match call.path? with
  | none => (call.failure .noTarget, c)
  | some path =>
    match takeFault call.method c.faults with
    | (none, _) => c.perform call path
    | (some status, faults) =>
        (call.failure (refusal status), { c with faults := faults })

/-- A Service is stored, in place of the one under the same key. -/
def store (c : Cluster) (key : ServiceKey) (object : Json) : Cluster :=
  { c with services := c.services.set key object }

/-- A stored Service is changed by a merge patch. -/
def edit (c : Cluster) (key : ServiceKey) (patch : Json) : Cluster :=
  match c.services.get? key with
  | some object => c.store key (object.merge patch)
  | none => c

def drop (c : Cluster) (key : ServiceKey) : Cluster :=
  { c with services := c.services.erase key }

def fail (c : Cluster) (fault : StoreFault) : Cluster :=
  { c with faults := c.faults ++ [fault] }

end Cluster

end PortForwarding.Simulation
