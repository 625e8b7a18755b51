import PortForwarding.KeyLocks
import PortForwarding.Simulation.Cluster
import PortForwarding.Simulation.Router

/-! # A world in memory

Everything that scripts ask for: a router, a cluster, the shared memory, the
locks, the signal to stop and a clock that stands still. `World.answer` answers a
request for a script that is called `who` at the locks, and keeps a log.
-/

namespace PortForwarding.Simulation

open Script

/-- What happens just before a listing of the router. -/
inductive Surprise where
  | interference (what : Interference)
  | claim (key : ServiceKey) (ports : List UInt16)
  deriving DecidableEq, Repr

/-- An exchange in the log, with the seconds since the start. -/
structure LogEntry where
  seconds : Nat
  exchange : Exchange

/-- Everything that scripts ask for. -/
structure World where
  router : Router
  cluster : Cluster
  memory : Memory
  locks : KeyLocks ServiceKey Nat
  /-- Whether the signal to stop has been given. -/
  cancelled : Bool
  /-- The number of mutating calls after which the signal is given. -/
  cancelAt : Option Nat
  /-- What happens just before listings, by their numbers. -/
  surprises : List (Nat × Surprise)
  /-- How long a listing takes, in seconds. -/
  listDelay : Nat
  /-- The milliseconds since the start. -/
  clock : Nat
  /-- The exchanges, the latest first. -/
  log : List LogEntry

namespace World

def empty : World :=
  { router := .empty, cluster := .empty, memory := .empty, locks := .empty
    cancelled := false
    cancelAt := none, surprises := [], listDelay := 0, clock := 0, log := [] }

instance : Inhabited World := ⟨empty⟩

/-- The time by which the limiter measures, in nanoseconds. It stands still, long
enough after its origin for earlier times to exist. -/
def instant : Nat := Limiter.seconds (Nat.pow 2 64)

/-- The time that is written down. It stands still. -/
def time : Timestamp :=
  .midnight ⟨2026, 11, 19, by decide, by decide⟩

/-- Ports are reserved, if no other Service holds any of them. -/
def claim (w : World) (key : ServiceKey) (ports : List UInt16) :
    Except PortConflict Unit × World :=
  let (reply, memory) := MemoryCall.answer instant w.memory (.claim key ports)
  (reply, { w with memory := memory })

def surprise (w : World) : Surprise → World
  | .interference what => { w with router := w.router.interfere what }
  | .claim key ports => (w.claim key ports).2

/-- The world after what happens just before the next listing. -/
def surprised (w : World) : World :=
  (w.surprises.filter fun s => s.1 == w.router.listings).foldl
    (fun w s => w.surprise s.2) w

/-- The signal to stop is given if it is due. -/
def checkSignal (w : World) : World :=
  match w.cancelAt with
  | some n => if w.router.calls ≥ n then { w with cancelled := true } else w
  | none => w

/-- The answer to a call to the router, and the world after it. -/
def answerRouter (w : World) (call : RouterCall) : call.Reply × World :=
  let w := match call with
    | .list => w.surprised
    | _ => w
  let (reply, router) := w.router.answer call
  let w := { w with router := router }
  (reply, if call.isMutation then w.checkSignal else w)

/-- The answer to a request of the script called `who`, and the world after it. -/
def answerSilently (who : Nat) : Surroundings World := fun r w =>
  match r with
  | .router call => w.answerRouter call
  | .store call =>
    let (reply, cluster) := w.cluster.answer call
    (reply, { w with cluster := cluster })
  | .memory call =>
    let (reply, memory) := call.answer instant w.memory
    (reply, { w with memory := memory })
  | .publish _ _ => ((), w)
  | .cancelled => (w.cancelled, w)
  | .now => (time, w)
  | .lock key => ((), { w with locks := w.locks.lock key who })
  | .unlock key => ((), { w with locks := w.locks.release key who })

/-- The answer to a request, and the world after it with an entry in its log. -/
def answer (who : Nat) : Surroundings World := fun r w =>
  let (reply, w) := answerSilently who r w
  (reply, { w with log := ⟨w.clock / 1000, ⟨r, reply⟩⟩ :: w.log })

/-- The result of a script that nothing else runs beside, and the world after it. -/
def perform {α : Type} (w : World) (s : Script α) : α × World :=
  s.run (answer 0) w

/-! ## Preparations -/

/-- A change to the router alone. -/
def onRouter (w : World) (f : Router → Router) : World :=
  { w with router := f w.router }

def onCluster (w : World) (f : Cluster → Cluster) : World :=
  { w with cluster := f w.cluster }

/-- Something happens just before the `n`-th listing to come. -/
def beforeListing (w : World) (n : Nat) (s : Surprise) : World :=
  { w with surprises := w.surprises ++ [(w.router.listings + n, s)] }

/-- The signal to stop is given after the `n`-th mutating call to come. -/
def cancelAfter (w : World) (n : Nat) : World :=
  { w with cancelAt := some (w.router.calls + max n 1) }

def cancel (w : World) : World :=
  { w with cancelled := true }

/-- The router fails no more, and nothing happens before listings. -/
def clearFaults (w : World) : World :=
  { w with router := w.router.clearFaults, surprises := [] }

def observe (w : World) (subject error : String) (secondsAgo : Nat) :
    Decision × World :=
  let (d, l) :=
    w.memory.limiter.observe subject error (instant - Limiter.seconds secondsAgo)
  (d, { w with memory := { w.memory with limiter := l } })

def forget (w : World) (subject : String) : World :=
  { w with memory := { w.memory with limiter := w.memory.limiter.reset subject } }

/-- What has not been in use is swept away: the numbers of failures and of locks. -/
def sweep (w : World) (ttlSeconds : Nat) : (Nat × Nat) × World :=
  let limiter := w.memory.limiter.purge instant (Limiter.seconds ttlSeconds)
  let locks := w.locks.prune
  ((w.memory.limiter.size - limiter.size, w.locks.size - locks.size),
    { w with memory := { w.memory with limiter := limiter }, locks := locks })

/-- The log in order, and the world with an empty one. -/
def takeLog (w : World) : List LogEntry × World :=
  (w.log.reverse, { w with log := [] })

end World

end PortForwarding.Simulation
