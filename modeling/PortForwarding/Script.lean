import PortForwarding.Http.Target
import PortForwarding.Memory
import PortForwarding.Notification
import PortForwarding.Router.Error
import PortForwarding.Time.Timestamp

/-! # Scripts

A pass is a script: it asks its surroundings for one thing after another and goes
on with the replies. The router, the Kubernetes API, the shared memory, the locks,
the clock and the signal to stop are all reached in this way and in no other, so
that a script says everything about a pass, whatever its surroundings do.

`Script.run` carries a script out against surroundings that keep a state;
`Script.Runs` is the relation between a script, the replies it got and its result,
for any surroundings at all.
-/

namespace PortForwarding

/-! ## Requests -/

/-- A call to the router. -/
inductive RouterCall where
  | list
  | add (spec : RuleSpec)
  | update (id : String) (spec : RuleSpec)
  | remove (id : String)
  /-- Asks whether the router takes calls. -/
  | ready
  deriving DecidableEq, Repr

/-- What the router answers. -/
abbrev RouterCall.Reply : RouterCall → Type
  | .list => Except RouterError (List RouterRule)
  | .add _ => Except RouterError RouterRule
  | .update _ _ => Except RouterError RouterRule
  | .remove _ => Except RouterError Unit
  | .ready => Except RouterError Bool

def RouterCall.isMutation : RouterCall → Bool
  | .list | .ready => false
  | _ => true

/-- Why a call to the Kubernetes API failed. -/
inductive StoreError where
  /-- The call was refused with a status. -/
  | refused (status : Nat) (detail : String)
  /-- The call has no target, so that nothing was asked. -/
  | noTarget
  deriving DecidableEq, Repr, Inhabited

namespace StoreError

def message : StoreError → String
  | .refused status detail =>
    "Kubernetes API error: " ++ detail ++ " (status " ++ Text.showNat status ++ ")"
  | .noTarget => "Kubernetes API error: the name is not one that can be asked for"

def isNotFound : StoreError → Bool
  | .refused status _ => decide (status = 404)
  | .noTarget => false

end StoreError

/-- A change to a Service: its whole list of finalizers, or the values of some
annotations, where none takes an annotation away. -/
inductive ServicePatch where
  | finalizers (names : List String)
  | annotations (changes : List (String × Option String))
  deriving DecidableEq, Repr

def ServicePatch.toJson : ServicePatch → Json
  | .finalizers names => .obj [("metadata", .obj [("finalizers", .texts names)])]
  | .annotations changes =>
    .obj [("metadata", .obj [("annotations",
      .obj (changes.map fun (name, value) => (name, Json.orNull (value.map .str))))])]

/-- A call to the Kubernetes API. -/
inductive StoreCall where
  | list
  | get (key : ServiceKey)
  | patch (key : ServiceKey) (change : ServicePatch)
  deriving DecidableEq, Repr

namespace StoreCall

/-- What the Kubernetes API answers. -/
abbrev Reply : StoreCall → Type
  | .list => Except StoreError (List ServiceObject)
  | .get _ => Except StoreError ServiceObject
  | .patch _ _ => Except StoreError Unit

def method : StoreCall → String
  | .list | .get _ => "GET"
  | .patch _ _ => "PATCH"

def servicePath (key : ServiceKey) : String :=
  "/api/v1/namespaces/" ++ key.namespace ++ "/services/" ++ key.name

/-- The path that the request asks for. A Service without a name cannot be asked
for, and neither can one whose key does not fit into a target. -/
def path? : StoreCall → Option String
  | .list => some "/api/v1/services"
  | .get key | .patch key _ =>
      if key.name = "" then none else Target.path? (servicePath key)

def body : StoreCall → Option Json
  | .patch _ change => some change.toJson
  | _ => none

def failure (e : StoreError) : (c : StoreCall) → c.Reply
  | .list | .get _ | .patch _ _ => .error e

/-- The status of an answer, if anything was asked. -/
def status? : (c : StoreCall) → c.Reply → Option Nat
  | .list, .ok _ | .get _, .ok _ | .patch _ _, .ok _ => some 200
  | .list, .error e | .get _, .error e | .patch _ _, .error e =>
    match e with
    | .refused status _ => some status
    | .noTarget => none

end StoreCall

/-- Something that a script asks for. -/
inductive Request where
  | router (call : RouterCall)
  | store (call : StoreCall)
  | memory (call : MemoryCall)
  | publish (object : ObjectReference) (notification : Notification)
  | cancelled
  | now
  | lock (key : ServiceKey)
  | unlock (key : ServiceKey)

/-- What a script gets. -/
abbrev Request.Reply : Request → Type
  | .router call => call.Reply
  | .store call => call.Reply
  | .memory call => call.Reply
  | .publish _ _ => Unit
  | .cancelled => Bool
  | .now => Timestamp
  | .lock _ => Unit
  | .unlock _ => Unit

/-! ## Scripts -/

/-- A script with a result. -/
inductive Script (α : Type) : Type where
  | done (value : α)
  | ask (request : Request) (next : request.Reply → Script α)

namespace Script

variable {α β γ σ : Type}

def bind (s : Script α) (f : α → Script β) : Script β :=
  match s with
  | .done a => f a
  | .ask request next => .ask request fun reply => (next reply).bind f

instance : Monad Script where
  pure := .done
  bind := bind

def request (r : Request) : Script r.Reply :=
  .ask r .done

/-- Surroundings that answer requests and keep a state. -/
abbrev Surroundings (σ : Type) := (r : Request) → σ → r.Reply × σ

/-- The result of a script and the state of its surroundings afterwards. -/
def run (answer : Surroundings σ) : Script α → σ → α × σ
  | .done a, s => (a, s)
  | .ask r next, s =>
    let (reply, s) := answer r s
    run answer (next reply) s

/-- A request with the reply that was given to it. -/
abbrev Exchange := (r : Request) × r.Reply

/-- The script got these replies, in order, and came to this result. -/
inductive Runs : Script α → List Exchange → α → Prop where
  | done (a : α) : Runs (.done a) [] a
  | ask {r : Request} {next : r.Reply → Script α} {reply : r.Reply}
      {rest : List Exchange} {a : α}
      (h : Runs (next reply) rest a) : Runs (.ask r next) (⟨r, reply⟩ :: rest) a

/-! ## Laws -/

@[simp] theorem pure_eq (a : α) : (pure a : Script α) = .done a := rfl

@[simp] theorem bind_eq (s : Script α) (f : α → Script β) : s >>= f = s.bind f := rfl

@[simp] theorem done_bind (a : α) (f : α → Script β) :
    (Script.done a).bind f = f a := rfl

@[simp] theorem ask_bind (r : Request) (next : r.Reply → Script α)
    (f : α → Script β) :
    (Script.ask r next).bind f = .ask r fun reply => (next reply).bind f := rfl

theorem bind_assoc (s : Script α) (f : α → Script β) (g : β → Script γ) :
    (s.bind f).bind g = s.bind fun a => (f a).bind g := by
  induction s with
  | done a => rfl
  | ask r next ih => simp [ih]

theorem bind_done (s : Script α) : s.bind .done = s := by
  induction s with
  | done a => rfl
  | ask r next ih => simp [ih]

instance : LawfulMonad Script :=
  LawfulMonad.mk' Script bind_done (fun _ _ => rfl) bind_assoc

@[simp] theorem run_done (answer : Surroundings σ) (a : α) (s : σ) :
    run answer (.done a) s = (a, s) := rfl

@[simp] theorem run_ask (answer : Surroundings σ) (r : Request)
    (next : r.Reply → Script α) (s : σ) :
    run answer (.ask r next) s =
      run answer (next (answer r s).1) (answer r s).2 := rfl

theorem run_bind (answer : Surroundings σ) (t : Script α) (f : α → Script β) (s : σ) :
    run answer (t.bind f) s =
      run answer (f (run answer t s).1) (run answer t s).2 := by
  induction t generalizing s with
  | done a => rfl
  | ask r next ih => simp [ih]

/-! ## Requests by name -/

def listRules : ExceptT RouterError Script (List RouterRule) :=
  ExceptT.mk (request (.router .list))

def addRule (spec : RuleSpec) : ExceptT RouterError Script RouterRule :=
  ExceptT.mk (request (.router (.add spec)))

def updateRule (id : String) (spec : RuleSpec) :
    ExceptT RouterError Script RouterRule :=
  ExceptT.mk (request (.router (.update id spec)))

def removeRule (id : String) : ExceptT RouterError Script Unit :=
  ExceptT.mk (request (.router (.remove id)))

def isReady : ExceptT RouterError Script Bool :=
  ExceptT.mk (request (.router .ready))

def listServices : ExceptT StoreError Script (List ServiceObject) :=
  ExceptT.mk (request (.store .list))

def getService (key : ServiceKey) : ExceptT StoreError Script ServiceObject :=
  ExceptT.mk (request (.store (.get key)))

def patchService (key : ServiceKey) (change : ServicePatch) :
    ExceptT StoreError Script Unit :=
  ExceptT.mk (request (.store (.patch key change)))

def publish (object : ObjectReference) (n : Notification) : Script Unit :=
  request (.publish object n)

/-- Whether the signal to stop has been given. -/
def isCancelled : Script Bool := request .cancelled

def now : Script Timestamp := request .now

def memory (call : MemoryCall) : Script call.Reply := request (.memory call)

/-- A script carried out under the lock of a Service. -/
def locked (key : ServiceKey) (body : Script α) : Script α := do
  request (.lock key)
  let a ← body
  request (.unlock key)
  return a

/-- A script that may fail, carried out under the lock of a Service. -/
def lockedTry {ε : Type} (key : ServiceKey) (body : ExceptT ε Script α) :
    ExceptT ε Script α :=
  ExceptT.mk (locked key body.run)

end Script

end PortForwarding
