import PortForwarding.Simulation.World

/-! # Preparing a world

The steps by which a scene is set before scripts run in a world: what is stored
and changed from outside, and what is going to fail. `World.prepare` takes a step
and says what came of it.
-/

namespace PortForwarding.Simulation

/-- A step that sets the scene. -/
inductive Preparation where
  | store (key : ServiceKey) (object : Json)
  | edit (key : ServiceKey) (patch : Json)
  | drop (key : ServiceKey)
  | seed (spec : RuleSpec)
  | interfere (what : Interference)
  | failMutation (n : Nat)
  | failName (name : String)
  | rejectName (name : String)
  | vanishOnFailure (id : String)
  | failListing (fail : Bool)
  | failCall (n : Nat) (error : RouterError)
  | failListingCall (n : Nat) (error : RouterError)
  | beforeListing (n : Nat) (surprise : Surprise)
  | clearFaults
  | cancel
  | cancelAfter (n : Nat)
  | failStore (fault : StoreFault)
  | claim (key : ServiceKey) (ports : List UInt16)
  | observe (subject error : String) (secondsAgo : Nat)
  | forget (subject : String)
  | sweep (ttlSeconds : Nat)
  | askReady
  | listDelay (seconds : Nat)

abbrev Preparation.Reply : Preparation → Type
  | .seed _ => RouterRule
  | .claim _ _ => Except PortConflict Unit
  | .observe _ _ _ => Decision
  | .sweep _ => Nat × Nat
  | .askReady => Except RouterError Bool
  | _ => Unit

namespace World

/-- What comes of a step, and the world after it. -/
def prepare (w : World) : (p : Preparation) → p.Reply × World
  | .store key object => ((), w.onCluster (·.store key object))
  | .edit key patch => ((), w.onCluster (·.edit key patch))
  | .drop key => ((), w.onCluster (·.drop key))
  | .seed spec =>
    let (rule, router) := w.router.insert spec
    (rule, { w with router := router })
  | .interfere what => ((), w.onRouter (·.interfere what))
  | .failMutation n => ((), w.onRouter (·.failMutation n))
  | .failName name => ((), w.onRouter (·.failName name))
  | .rejectName name => ((), w.onRouter (·.rejectName name))
  | .vanishOnFailure id => ((), w.onRouter (·.vanishOnFailure id))
  | .failListing fail => ((), w.onRouter (·.failListing fail))
  | .failCall n error => ((), w.onRouter (·.failCall n error))
  | .failListingCall n error => ((), w.onRouter (·.failListingCall n error))
  | .beforeListing n s => ((), w.beforeListing n s)
  | .clearFaults => ((), w.clearFaults)
  | .cancel => ((), w.cancel)
  | .cancelAfter n => ((), w.cancelAfter n)
  | .failStore fault => ((), w.onCluster (·.fail fault))
  | .claim key ports => w.claim key ports
  | .observe subject error secondsAgo => w.observe subject error secondsAgo
  | .forget subject => ((), w.forget subject)
  | .sweep ttlSeconds => w.sweep ttlSeconds
  | .askReady => w.answerRouter .ready
  | .listDelay seconds => ((), { w with listDelay := seconds })

end World

end PortForwarding.Simulation
