import PortForwarding.Pass.Fleet
import PortForwarding.Simulation.World

/-! # Scripts over time

Scripts that run beside each other in a world whose clock jumps from one alarm to
the next. A script runs until it ends, lists a router on which that takes time, or
has to wait for a lock. Alarms that are due at the same time go off in the order
in which they were set; then the scripts that have got a lock meanwhile go on, in
the order in which they got it, and then new ones begin.

Two loops run in this way: the one that keeps a Service in line (`watch`) and the
one that looks for drift (`patrol`).
-/

namespace PortForwarding.Simulation

open Script

variable {α : Type}

/-- Where a script has come to. -/
inductive Pause (α : Type) where
  | ended (value : α)
  /-- It waits for a listing of the router. -/
  | listing (next : RouterCall.list.Reply → Script α)
  /-- It waits for the lock of a Service. -/
  | blocked (key : ServiceKey) (next : Script α)

/-- What a script has done in one go. -/
structure Stretch (α : Type) where
  pause : Pause α
  world : World
  /-- The locks that it has given up, in order. -/
  released : List ServiceKey

/-- Runs a script as far as it gets, after it has given up some locks. -/
def advance (who : Nat) : Script α → World → List ServiceKey → Stretch α
  | .done a, w, released => ⟨.ended a, w, released⟩
  | .ask (.router .list) next, w, released =>
    if w.listDelay = 0 then
      let (reply, w) := w.answer who (.router .list)
      advance who (next reply) w released
    else ⟨.listing next, w, released⟩
  | .ask (.lock key) next, w, released =>
    let (reply, w) := w.answer who (.lock key)
    if w.locks.isHeldBy key who then advance who (next reply) w released
    else ⟨.blocked key (next reply), w, released⟩
  | .ask (.unlock key) next, w, released =>
    let (reply, w) := w.answer who (.unlock key)
    advance who (next reply) w (released ++ [key])
  | .ask r next, w, released =>
    let (reply, w) := w.answer who r
    advance who (next reply) w released

/-- What an alarm is for. -/
inductive Alarm (α : Type) where
  /-- The next script is due. -/
  | tick
  /-- The end has come. -/
  | stop
  /-- The listing of a script is there. -/
  | wake (who : Nat) (next : RouterCall.list.Reply → Script α)
  /-- A new script begins. -/
  | begin (who : Nat) (script : Script α)

/-- Whether an alarm lets a new script begin. -/
def Alarm.isBegin : Alarm α → Bool
  | .begin _ _ => true
  | _ => false

/-- A script that waits for a lock. -/
structure Blocked (α : Type) where
  who : Nat
  key : ServiceKey
  next : Script α

/-- A world with the scripts that run in it. -/
structure Timeline (α : Type) where
  world : World
  /-- The alarms with their times, in the order in which they go off. -/
  alarms : List (Nat × Alarm α)
  /-- The scripts that wait for locks, in the order in which they came. -/
  blocked : List (Blocked α)
  /-- The scripts that have got the locks they waited for, in the order in which
  they got them. -/
  ready : List (Blocked α)
  /-- The number of scripts that have been started. -/
  started : Nat
  /-- The number of scripts that have ended. -/
  finished : Nat

namespace Timeline

def ofWorld (w : World) : Timeline α :=
  { world := w, alarms := [], blocked := [], ready := [], started := 0, finished := 0 }

/-- Alarms with one more, after those that are due at the same time. -/
def insertAlarm (time : Nat) (a : Alarm α) :
    List (Nat × Alarm α) → List (Nat × Alarm α)
  | [] => [(time, a)]
  | b :: bs => if time < b.1 then (time, a) :: b :: bs else b :: insertAlarm time a bs

/-- An alarm is set to go off after a number of milliseconds. -/
def setAlarm (t : Timeline α) (after : Nat) (a : Alarm α) : Timeline α :=
  { t with alarms := insertAlarm (t.world.clock + after) a t.alarms }

/-- No further script comes due. -/
def withoutTicks (t : Timeline α) : Timeline α :=
  { t with alarms := t.alarms.filter fun a =>
      match a.2 with
      | .tick => false
      | _ => true }

def running (t : Timeline α) : Nat :=
  t.started - t.finished

/-- The script that has got a lock it waited for, and the others. -/
def takeHolder (w : World) (key : ServiceKey) :
    List (Blocked α) → Option (Blocked α × List (Blocked α))
  | [] => none
  | b :: bs =>
    if b.key = key ∧ w.locks.isHeldBy key b.who then some (b, bs)
    else (takeHolder w key bs).map fun (holder, rest) => (holder, b :: rest)

/-- The script that has got a lock, if there is one, is ready to go on. -/
def handOver (t : Timeline α) (key : ServiceKey) : Timeline α :=
  match takeHolder t.world key t.blocked with
  | some (holder, rest) => { t with blocked := rest, ready := t.ready ++ [holder] }
  | none => t

/-- Runs a script as far as it gets: its result, if it has ended. -/
def proceed (t : Timeline α) (who : Nat) (s : Script α) : Option α × Timeline α :=
  let stretch := advance who s t.world []
  let t := stretch.released.foldl handOver { t with world := stretch.world }
  match stretch.pause with
  | .ended a => (some a, { t with finished := t.finished + 1 })
  | .listing next => (none, t.setAlarm (t.world.listDelay * 1000) (.wake who next))
  | .blocked key next => (none, { t with blocked := t.blocked ++ [⟨who, key, next⟩] })

/-- Starts a script, which begins when nothing else is to be done at this time. -/
def start (t : Timeline α) (s : Script α) : Timeline α :=
  { t with started := t.started + 1 }.setAlarm 0 (.begin (t.started + 1) s)

/-- What happens next. -/
inductive Event (α : Type) where
  | tick
  | stop
  /-- A script has come as far as it gets, with its result if it has ended. -/
  | progress (result : Option α)

def goOff? (t : Timeline α) : Option (Event α × Timeline α) :=
  match t.alarms with
  | [] => none
  | (time, a) :: rest =>
    let t := { t with alarms := rest, world := { t.world with clock := time } }
    match a with
    | .tick => some (.tick, t)
    | .stop => some (.stop, t)
    | .wake who next =>
      let (reply, w) := t.world.answer who (.router .list)
      let (result, t) := { t with world := w }.proceed who (next reply)
      some (.progress result, t)
    | .begin who script =>
      let (result, t) := t.proceed who script
      some (.progress result, t)

/-- Whether an alarm is due that comes before the scripts that have got a lock. -/
def isUrgent (t : Timeline α) : Bool :=
  match t.alarms with
  | [] => false
  | (time, a) :: _ => decide (time ≤ t.world.clock) && !a.isBegin

/-- The next thing that happens, and the timeline after it. -/
def next? (t : Timeline α) : Option (Event α × Timeline α) :=
  if t.isUrgent then t.goOff?
  else
    match t.ready with
    | b :: rest =>
      let (result, t) := { t with ready := rest }.proceed b.who b.next
      some (.progress result, t)
    | [] => t.goOff?

end Timeline

/-! ## Keeping a Service in line -/

namespace Watch

/-- A pass for a Service, with what happens after it. -/
def cycle (settings : CleanupSettings) (defaults : RuleDefaults)
    (service : ServiceObject) :
    Script Action := do
  match ← (Reconcile.pass settings defaults service).run with
  | .ok action => return action
  | .error failure => Reconcile.afterFailure service failure

def ceilMillis (nanos : Nat) : Nat :=
  (nanos + 999999) / 1000000

/-- The alarm for the next cycle, if there is to be one. -/
def schedule (t : Timeline Action) : Option Action → Timeline Action
  | some (.requeue after) => t.setAlarm (ceilMillis after) .tick
  | _ => t

/-- Goes on for a number of events, or until the end has come. -/
def goOn (body : Script Action) : Nat → Timeline Action → World
  | 0, t => t.world
  | fuel + 1, t =>
    match t.next? with
    | none => t.world
    | some (.stop, t) => t.world
    | some (.progress result, t) => goOn body fuel (schedule t result)
    | some (.tick, t) => goOn body fuel (t.start body)

end Watch

/-- The number of events in a cycle with at most three listings. -/
def Watch.eventsPerCycle : Nat := 8

/-- Keeps the Services of a cluster in line until half a second after `horizon`,
seeing each of them as it is at the start. -/
def watch (settings : CleanupSettings) (defaults : RuleDefaults) (horizon : Nat)
    (w : World) : World :=
  match w.perform listServices.run with
  | (.ok [service], w) =>
    let t := ((Timeline.ofWorld w).setAlarm 0 .tick).setAlarm (horizon * 1000 + 500) .stop
    Watch.goOn (Watch.cycle settings defaults service)
      ((horizon + 2) * Watch.eventsPerCycle) t
  | (_, w) => w

/-! ## Looking for drift -/

/-- A result that the pass itself has already told about. -/
abbrev PassResult := Except FleetError PassSummary

namespace Patrol

/-- A pass is started if fewer than `limit` are running. -/
def startPass (limit : Nat) (body : Script PassResult) (t : Timeline PassResult) :
    Timeline PassResult :=
  if t.running < limit then t.start body else t

/-- Goes on for a number of events, or until nothing is left to happen. -/
def goOn (settings : DriftSettings) (body : Script PassResult) :
    Nat → Timeline PassResult → World
  | 0, t => t.world
  | fuel + 1, t =>
    match t.next? with
    | none => t.world
    | some (.stop, t) =>
      goOn settings body fuel { t.withoutTicks with world := t.world.cancel }
    | some (.progress _, t) => goOn settings body fuel t
    | some (.tick, t) =>
      if t.world.cancelled then goOn settings body fuel t
      else
        goOn settings body fuel
          (startPass settings.maxConcurrentPasses.toNat body
            (t.setAlarm (settings.interval * 1000) .tick))

/-- The number of events in a pass through so many Services, each of which is
listed for and locked, and in which a plan may be undone. -/
def eventsPerPass (services : Nat) : Nat :=
  4 * services + 4

end Patrol

/-- Looks for drift until half a second after `horizon`, and lets the last
passes end. -/
def patrol (settings : DriftSettings) (defaults : RuleDefaults) (horizon : Nat)
    (w : World) : World :=
  let t := ((Timeline.ofWorld w).setAlarm 0 .tick).setAlarm (horizon * 1000 + 500) .stop
  let passes := horizon / settings.interval + 2
  Patrol.goOn settings (Fleet.pass defaults).run
    (passes * Patrol.eventsPerPass w.cluster.services.size) t

end PortForwarding.Simulation
