import PortForwarding.Backoff
import PortForwarding.Limiter
import PortForwarding.Reservations

/-! # Shared memory

What all passes share and nothing but memory keeps: the reserved ports, the
limiter and the counts of failed attempts. Each call reads or changes it in one
step.
-/

namespace PortForwarding

/-- The memory that all passes share. -/
structure Memory where
  reservations : Reservations
  limiter : Limiter
  retries : RetryCounts
  deriving DecidableEq, Repr, Inhabited

def Memory.empty : Memory := ⟨.empty, .empty, .empty⟩

/-- A step on the shared memory. -/
inductive MemoryCall where
  | claim (key : ServiceKey) (ports : List UInt16)
  | retain (key : ServiceKey) (keep : List UInt16)
  | release (key : ServiceKey) (port : UInt16)
  | releaseAll (key : ServiceKey)
  | observe (subject error : String)
  | remaining (subject : String)
  | forget (subject : String)
  | countRetry (key : ServiceKey)
  | resetRetries (key : ServiceKey)
  deriving DecidableEq, Repr

namespace MemoryCall

/-- What a step answers. -/
abbrev Reply : MemoryCall → Type
  | .claim _ _ => Except PortConflict Unit
  | .retain _ _ => Unit
  | .release _ _ => Bool
  | .releaseAll _ => Unit
  | .observe _ _ => Decision
  | .remaining _ => Option Nat
  | .forget _ => Unit
  | .countRetry _ => Nat
  | .resetRetries _ => Unit

/-- The answer to a step at a time, and the memory after it. -/
def answer (now : Nat) (m : Memory) : (c : MemoryCall) → c.Reply × Memory
  | .claim key ports =>
    match m.reservations.claim key ports with
    | .ok r => (.ok (), { m with reservations := r })
    | .error c => (.error c, m)
  | .retain key keep => ((), { m with reservations := m.reservations.retain key keep })
  | .release key port =>
    (decide (m.reservations.holder? port = some key),
      { m with reservations := m.reservations.release key port })
  | .releaseAll key => ((), { m with reservations := m.reservations.releaseAll key })
  | .observe subject error =>
    let (d, l) := m.limiter.observe subject error now
    (d, { m with limiter := l })
  | .remaining subject => (m.limiter.remaining? subject now, m)
  | .forget subject => ((), { m with limiter := m.limiter.reset subject })
  | .countRetry key =>
    let r := m.retries.increment key
    (r.get key, { m with retries := r })
  | .resetRetries key => ((), { m with retries := m.retries.reset key })

end MemoryCall

end PortForwarding
