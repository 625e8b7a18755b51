import PortForwarding.KeyLocks
import PortForwarding.Rule

/-! # Locks held under names

A desk that takes and gives up locks for clients that are known by names. A client
can hold one lock and wait for another. A lock taken, or waited for, under a name
takes the place of the one before, which is given up.
-/

namespace PortForwarding.Simulation

/-- A place in the queue of a lock. -/
structure Place where
  key : ServiceKey
  who : Nat
  deriving DecidableEq, Repr, Inhabited

/-- Locks, with the places that clients have under their names. -/
structure LockDesk where
  locks : KeyLocks ServiceKey Nat
  held : Table String Place
  awaited : Table String Place
  /-- The number of places that have been given out. -/
  places : Nat
  deriving DecidableEq, Repr

namespace LockDesk

def empty : LockDesk := ⟨.empty, .empty, .empty, 0⟩

instance : Inhabited LockDesk := ⟨empty⟩

def leave (d : LockDesk) (p : Option Place) : LockDesk :=
  match p with
  | some p => { d with locks := d.locks.release p.key p.who }
  | none => d

/-- A place that has its lock is kept under a name. -/
def hold (d : LockDesk) (name : String) (p : Place) : LockDesk :=
  let d := d.leave (d.held.get? name)
  { d with held := d.held.set name p }

/-- A place that waits for its lock is kept under a name. -/
def await (d : LockDesk) (name : String) (p : Place) : LockDesk :=
  let d := d.leave (d.awaited.get? name)
  { d with awaited := d.awaited.set name p }

/-- A place in a queue is kept under a name, according to whether it has
the lock. -/
def settle (d : LockDesk) (name : String) (p : Place) : Bool × LockDesk :=
  if d.locks.isHeldBy p.key p.who then (true, d.hold name p) else (false, d.await name p)

/-- A client joins the queue of a lock: whether it has the lock at once. -/
def lock (d : LockDesk) (name : String) (key : ServiceKey) : Bool × LockDesk :=
  settle { d with locks := d.locks.lock key d.places, places := d.places + 1 }
    name ⟨key, d.places⟩

/-- A client takes a lock if nobody is there: whether it has it. -/
def tryLock (d : LockDesk) (name : String) (key : ServiceKey) : Bool × LockDesk :=
  let (taken, locks) := d.locks.tryLock key d.places
  let after := { d with locks := locks, places := d.places + 1 }
  (taken, if taken then after.hold name ⟨key, d.places⟩ else after)

/-- Whether a client that waits for a lock has it by now. -/
def poll (d : LockDesk) (name : String) : Bool × LockDesk :=
  match d.awaited.get? name with
  | none => (false, d)
  | some p =>
    if d.locks.isHeldBy p.key p.who then
      (true, { d with awaited := d.awaited.erase name }.hold name p)
    else (false, d)

/-- A client gives up its places: whether it had any. -/
def release (d : LockDesk) (name : String) : Bool × LockDesk :=
  let had := (d.held.get? name).isSome || (d.awaited.get? name).isSome
  let d := (d.leave (d.held.get? name)).leave (d.awaited.get? name)
  (had, { d with held := d.held.erase name, awaited := d.awaited.erase name })

/-- Slots where nobody is are dropped: how many they were. -/
def prune (d : LockDesk) : Nat × LockDesk :=
  let locks := d.locks.prune
  (d.locks.size - locks.size, { d with locks := locks })

end LockDesk

end PortForwarding.Simulation
