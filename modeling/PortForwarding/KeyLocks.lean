import PortForwarding.Table

/-! # Locks by key

Who changes the router on behalf of a Service holds the Service's lock. A lock is
a mutex. It is made when its key is first asked for, and is found under the key
from then on. Who asks for it becomes a party to the mutex and refers to it until
it leaves, whatever has become of the key. The parties to a mutex stand in the
order in which they came: the first one holds it, the others wait, and when one
leaves the next is first.

The slot under a key refers to the mutex too. `prune` goes by the number of
references alone: a slot is dropped if nothing but the slot refers to its mutex. A
key that is asked for again after that gets a new mutex.
-/

namespace PortForwarding

/-- Who holds a mutex or waits for it, and the key that it asked for. -/
structure Party (κ η : Type) where
  key : κ
  who : η
  mutex : Nat
  deriving DecidableEq, Repr

/-- The mutexes under keys, and who refers to them. -/
structure KeyLocks (κ η : Type) where
  slots : Table κ Nat
  /-- The parties to all mutexes, in the order in which they came. -/
  parties : List (Party κ η)
  /-- The number of mutexes that have been made. -/
  made : Nat
  deriving DecidableEq, Repr

namespace KeyLocks

variable {κ η : Type} [DecidableEq κ] [DecidableEq η]

def empty : KeyLocks κ η := ⟨.empty, [], 0⟩

instance : Inhabited (KeyLocks κ η) := ⟨empty⟩

omit [DecidableEq κ] [DecidableEq η] in
/-- The parties to a mutex, the holder first. -/
def queue (l : KeyLocks κ η) (mutex : Nat) : List (Party κ η) :=
  l.parties.filter fun p => decide (p.mutex = mutex)

omit [DecidableEq κ] [DecidableEq η] in
/-- How many references there are to a mutex, those of slots and those of
parties. -/
def references (l : KeyLocks κ η) (mutex : Nat) : Nat :=
  (l.slots.entries.filter fun e => decide (e.2 = mutex)).length + (l.queue mutex).length

/-- The mutex under a key, which is made if there is none. -/
def slot (l : KeyLocks κ η) (key : κ) : Nat × KeyLocks κ η :=
  match l.slots.get? key with
  | some mutex => (mutex, l)
  | none => (l.made, { l with slots := l.slots.set key l.made, made := l.made + 1 })

omit [DecidableEq κ] [DecidableEq η] in
/-- Somebody comes to a mutex. -/
def join (l : KeyLocks κ η) (p : Party κ η) : KeyLocks κ η :=
  { l with parties := l.parties ++ [p] }

/-- Whether `who` has asked for a lock and is first at its mutex. -/
def isHeldBy (l : KeyLocks κ η) (key : κ) (who : η) : Bool :=
  match l.parties.find? fun p => decide (p.key = key ∧ p.who = who) with
  | some p => (l.queue p.mutex).head? == some p
  | none => false

/-- `who` asks for a lock, and has it if nobody was at the mutex. -/
def lock (l : KeyLocks κ η) (key : κ) (who : η) : KeyLocks κ η :=
  let (mutex, l) := l.slot key
  l.join ⟨key, who, mutex⟩

/-- `who` takes a lock if nobody is at the mutex, and goes away otherwise. -/
def tryLock (l : KeyLocks κ η) (key : κ) (who : η) : Bool × KeyLocks κ η :=
  let (mutex, l) := l.slot key
  if (l.queue mutex).isEmpty then (true, l.join ⟨key, who, mutex⟩) else (false, l)

/-- `who` leaves a lock, whether it had the lock or waited for it. -/
def release (l : KeyLocks κ η) (key : κ) (who : η) : KeyLocks κ η :=
  { l with parties := l.parties.filter fun p => !decide (p.key = key ∧ p.who = who) }

/-- The slots are dropped that have the only reference to their mutex. -/
def prune (l : KeyLocks κ η) : KeyLocks κ η :=
  { l with slots := l.slots.filter fun _ mutex => decide (1 < l.references mutex) }

omit [DecidableEq κ] [DecidableEq η] in
def size (l : KeyLocks κ η) : Nat :=
  l.slots.size

end KeyLocks

end PortForwarding
