import PortForwarding.Text.Decimal

/-! # Router errors

Why a call to the router failed, and whether it may succeed when it is tried again.
-/

namespace PortForwarding

/-- Why a call to the router failed. -/
inductive RouterError where
  /-- The router could not be reached, or did not answer. -/
  | unreachable (detail : String)
  /-- The router's address is not one. -/
  | noAddress
  /-- The router refused the call. -/
  | api (status : Nat) (message : String)
  /-- The router does not know the rule. -/
  | notFound (what : String)
  /-- The router's answer is not in the form of one. -/
  | undecodable
  /-- The router's answer does not make sense. -/
  | invalidResponse (detail : String)
  /-- The settings do not allow any call. -/
  | config (detail : String)
  deriving DecidableEq, Repr, Inhabited

namespace RouterError

def message : RouterError → String
  | .unreachable detail => "HTTP request failed: " ++ detail
  | .noAddress => "HTTP request failed: the address names no host"
  | .api status message =>
    "Router API error (status " ++ Text.showNat status ++ "): " ++ message
  | .notFound what => "Rule not found: " ++ what
  | .undecodable => "Invalid router response: not a reply envelope"
  | .invalidResponse detail => "Invalid router response: " ++ detail
  | .config detail => "Client configuration error: " ++ detail

/-- Whether the call may succeed when it is tried again. -/
def isTransient : RouterError → Bool
  | .api status _ => decide (status ≥ 500) || decide (status = 429)
  | .noAddress | .config _ => false
  | _ => true

def isNotFound : RouterError → Bool
  | .notFound _ => true
  | _ => false

end RouterError

end PortForwarding
