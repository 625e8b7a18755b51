import PortForwarding.Script

/-! # A router in memory

A router whose rules are a list. Rules get the identifiers `r1`, `r2` and so on in
the order in which they are made; a rule is overwritten or deleted by its
identifier, and one that is not there is reported as not found.

It can be told to fail: a call, by its number among the calls to come, or
everything that concerns a rule of a certain name. A call that fails changes
nothing, apart from a rule that has been told to vanish on that occasion.
-/

namespace PortForwarding.Simulation

/-- What happens on the router behind the operator's back. -/
inductive Interference where
  | seed (spec : RuleSpec)
  | remove (id : String)
  | edit (id : String) (spec : RuleSpec)
  deriving DecidableEq, Repr

/-- What a router has been told to fail at. Calls are numbered from the first
one on. -/
structure Faults where
  /-- Numbers of mutations that fail, of those that are not in `calls`. -/
  mutations : List Nat
  /-- Names of rules whose mutations fail. -/
  names : List String
  /-- Names of rules whose mutations are refused for good. -/
  rejected : List String
  /-- Whether every listing fails. -/
  listing : Bool
  /-- The rule that vanishes when a mutation fails. -/
  vanishing : Option String
  /-- Numbers of mutating calls, with their errors. -/
  calls : List (Nat × RouterError)
  /-- Numbers of listings, with their errors. -/
  listings : List (Nat × RouterError)
  deriving DecidableEq, Repr

def Faults.none : Faults :=
  { mutations := [], names := [], rejected := [], listing := false
    vanishing := Option.none, calls := [], listings := [] }

/-- A router in memory. -/
structure Router where
  rules : List RouterRule
  /-- The number of rules made so far. -/
  made : Nat
  /-- The number of mutations so far, without those that `Faults.calls` stopped. -/
  mutations : Nat
  /-- The number of mutating calls so far. -/
  calls : Nat
  /-- The number of listings so far. -/
  listings : Nat
  faults : Faults
  deriving DecidableEq, Repr

namespace Router

def empty : Router :=
  { rules := [], made := 0, mutations := 0, calls := 0, listings := 0, faults := .none }

instance : Inhabited Router := ⟨empty⟩

def idOf (n : Nat) : String :=
  "r" ++ Text.showNat n

def find? (r : Router) (id : String) : Option RouterRule :=
  r.rules.find? fun x => x.id == id

def without (r : Router) (id : String) : Router :=
  { r with rules := r.rules.filter fun x => decide (x.id ≠ id) }

/-- The router with one rule more, and that rule. -/
def insert (r : Router) (spec : RuleSpec) : RouterRule × Router :=
  let rule : RouterRule := ⟨idOf (r.made + 1), spec⟩
  (rule, { r with rules := r.rules ++ [rule], made := r.made + 1 })

/-- Rules with the first one of an identifier overwritten. -/
def overwriteIn (id : String) (spec : RuleSpec) : List RouterRule → List RouterRule
  | [] => []
  | x :: xs =>
      if x.id = id then { x with spec := spec } :: xs
      else x :: overwriteIn id spec xs

def overwrite (r : Router) (id : String) (spec : RuleSpec) : Router :=
  { r with rules := overwriteIn id spec r.rules }

/-- The router after somebody else has been there. -/
def interfere (r : Router) : Interference → Router
  | .seed spec => (r.insert spec).2
  | .remove id => r.without id
  | .edit id spec => r.overwrite id spec

/-! ## Faults -/

def injected (what : String) : RouterError :=
  .api 500 ("injected failure: " ++ what)

/-- A mutation of a rule called `name` begins: the error it fails with, if
it does. -/
def begin (r : Router) (name what : String) : Option RouterError × Router :=
  let begun := { r with mutations := r.mutations + 1 }
  if r.faults.mutations.contains r.mutations || r.faults.names.contains name then
    let left := match r.faults.vanishing with
      | some id => begun.without id
      | none => begun
    (some (injected what), { left with faults := { left.faults with vanishing := none } })
  else if r.faults.rejected.contains name then
    (some (.api 400 ("api.err.InvalidPayload: " ++ what)), begun)
  else (none, begun)

/-! ## Calls -/

def add (r : Router) (spec : RuleSpec) : Except RouterError RouterRule × Router :=
  match r.begin spec.name "add" with
  | (some e, r) => (.error e, r)
  | (none, r) =>
    let (rule, r) := r.insert spec
    (.ok rule, r)

def update (r : Router) (id : String) (spec : RuleSpec) :
    Except RouterError RouterRule × Router :=
  match r.begin spec.name "update" with
  | (some e, r) => (.error e, r)
  | (none, r) =>
    if (r.find? id).isSome then (.ok ⟨id, spec⟩, r.overwrite id spec)
    else (.error (.notFound id), r)

def remove (r : Router) (id : String) : Except RouterError Unit × Router :=
  match r.find? id with
  | none => (.error (.notFound id), r)
  | some rule =>
    match r.begin rule.spec.name "remove" with
    | (some e, r) => (.error e, r)
    | (none, r) => (.ok (), r.without id)

def list (r : Router) : Except RouterError (List RouterRule) × Router :=
  let listed := { r with listings := r.listings + 1 }
  match r.faults.listings.lookup r.listings with
  | some e => (.error e, listed)
  | none => (if r.faults.listing then .error (injected "list") else .ok r.rules, listed)

/-- Whether the router takes calls. The fault of the next listing shows here too,
and is used up. -/
def ready (r : Router) : Except RouterError Bool × Router :=
  match r.faults.listings.lookup r.listings with
  | some e =>
    let left := r.faults.listings.filter fun f => decide (f.1 ≠ r.listings)
    (.error e, { r with faults := { r.faults with listings := left } })
  | none => (.ok (!r.faults.listing), r)

/-- The answer to a call, and the router after it. -/
def answer (r : Router) (c : RouterCall) : c.Reply × Router :=
  match c with
  | .list => r.list
  | .ready => r.ready
  | .add spec =>
    let called := { r with calls := r.calls + 1 }
    match r.faults.calls.lookup r.calls with
    | some e => (.error e, called)
    | none => called.add spec
  | .update id spec =>
    let called := { r with calls := r.calls + 1 }
    match r.faults.calls.lookup r.calls with
    | some e => (.error e, called)
    | none => called.update id spec
  | .remove id =>
    let called := { r with calls := r.calls + 1 }
    match r.faults.calls.lookup r.calls with
    | some e => (.error e, called)
    | none => called.remove id

/-! ## Telling the router to fail -/

def failMutation (r : Router) (n : Nat) : Router :=
  { r with
    faults := { r.faults with mutations := (r.mutations + n) :: r.faults.mutations } }

def failName (r : Router) (name : String) : Router :=
  { r with faults := { r.faults with names := name :: r.faults.names } }

/-- Mutations of rules with this name are refused for good. -/
def rejectName (r : Router) (name : String) : Router :=
  { r with faults := { r.faults with rejected := name :: r.faults.rejected } }

/-- Every listing fails, or none of them. -/
def failListing (r : Router) (fail : Bool) : Router :=
  { r with faults := { r.faults with listing := fail } }

/-- A rule vanishes when the next mutation fails. -/
def vanishOnFailure (r : Router) (id : String) : Router :=
  { r with faults := { r.faults with vanishing := some id } }

/-- The `n`-th mutating call to come fails with an error. -/
def failCall (r : Router) (n : Nat) (e : RouterError) : Router :=
  { r with faults := { r.faults with calls := (r.calls + n, e) :: r.faults.calls } }

/-- The `n`-th listing to come fails with an error. -/
def failListingCall (r : Router) (n : Nat) (e : RouterError) : Router :=
  { r with
    faults := { r.faults with listings := (r.listings + n, e) :: r.faults.listings } }

def clearFaults (r : Router) : Router :=
  { r with faults := .none }

end Router

end PortForwarding.Simulation
