import PortForwarding.Certificate.Bundle
import PortForwarding.Json.Parser
import PortForwarding.Router.Url
import PortForwarding.Router.Wire

/-! # The router's web interface

Rules are a collection of the router's web interface. A call is one request to the
collection or to a rule in it, and what the reply makes of it; the two are given by
separate functions, so that nothing here waits for anything.
-/

namespace PortForwarding

/-- A request to a web server. -/
structure HttpRequest where
  method : String
  target : String
  apiKey : String
  body : Option Json

/-- The answer of a web server. -/
structure HttpReply where
  status : Nat
  body : String
  deriving DecidableEq, Repr

/-- Access to the rules of a site. -/
structure RestClient where
  /-- The address of the collection. -/
  collection : String
  /-- The key, without the blanks that a header does not keep. -/
  apiKey : String
  deriving DecidableEq, Repr

namespace RestClient

/-- The text without strokes at its end. -/
def trimStrokes (s : String) : String :=
  String.ofList (s.toList.reverse.dropWhile (· == '/')).reverse

/-- The text without the blanks around it that do not belong to the value of
a header. -/
def headerValue (s : String) : String :=
  let blank (c : Char) : Bool := c == ' ' || c == '\t'
  String.ofList ((s.toList.dropWhile blank).reverse.dropWhile blank).reverse

def isHeaderChar (c : Char) : Bool :=
  c == '\t' || (decide (32 ≤ c.toNat) && decide (c.toNat ≠ 127))

/-- Why a bundle of certificates forbids all calls, if it does. -/
def bundleComplaint? (caBundle : String) : Option String :=
  match Certificate.Bundle.certificates? caBundle with
  | none => some "invalid CA bundle: a block has no valid body"
  | some certificates =>
    if certificates.all Certificate.isAnchor then none
    else some "failed to build HTTP client: builder error"

/-- Access to the rules of a site, unless the key or the certificates forbid it. -/
def of? (endpoint site apiKey : String) (caBundle : Option String) :
    Except RouterError RestClient :=
  if !apiKey.toList.all isHeaderChar then
    .error (.config "API key contains invalid characters")
  else
    match caBundle.bind bundleComplaint? with
    | some complaint => .error (.config complaint)
    | none =>
      .ok {
        collection := trimStrokes endpoint ++ "/proxy/network/api/s/" ++ site ++
          "/rest/portforward"
        apiKey := headerValue apiKey }

def ruleAddress (c : RestClient) (id : String) : String :=
  c.collection ++ "/" ++ id

/-! ## Requests -/

/-- The request with a method and a body to an address, if there is anyone to send
it to. -/
def requestTo? (c : RestClient) (method address : String) (body : Option Json) :
    Option HttpRequest :=
  (Url.target? address).map fun target => ⟨method, target, c.apiKey, body⟩

def listRequest? (c : RestClient) : Option HttpRequest :=
  c.requestTo? "GET" c.collection none

def addRequest? (c : RestClient) (spec : RuleSpec) : Option HttpRequest :=
  c.requestTo? "POST" c.collection (some (WireRule.ofSpec spec).toJson)

def updateRequest? (c : RestClient) (id : String) (spec : RuleSpec) :
    Option HttpRequest :=
  c.requestTo? "PUT" (c.ruleAddress id)
    (some ({ WireRule.ofSpec spec with id := some id }).toJson)

def removeRequest? (c : RestClient) (id : String) : Option HttpRequest :=
  c.requestTo? "DELETE" (c.ruleAddress id) none

/-! ## Replies -/

/-- Whether a status says that the call went well. -/
def isSuccess (status : Nat) : Bool :=
  decide (200 ≤ status) && decide (status < 300)

/-- Whether a reply with a status reaches the client: it is a final one, or the
one that changes the protocol. -/
def isFinal (status : Nat) : Bool :=
  status == 101 || (decide (200 ≤ status) && decide (status < 1000))

/-- The statuses of replies that have no body. -/
def bodiless : List Nat := [101, 204, 304]

/-- The body that reaches the client. -/
def receivedBody (reply : HttpReply) : String :=
  if bodiless.contains reply.status then "" else reply.body

def occursIn (part : List Char) : List Char → Bool
  | [] => part.isEmpty
  | c :: cs => part.isPrefixOf (c :: cs) || occursIn part cs

/-- The reply that a request has got, if it was sent and answered. -/
def received (request : Option HttpRequest) (reply : Option HttpReply) :
    Except RouterError HttpReply :=
  match request, reply.filter fun r => isFinal r.status with
  | none, _ => .error .noAddress
  | some _, none => .error (.unreachable "no reply")
  | some _, some r => .ok r

/-- The rules in a reply to a call about `what`. -/
def decode (what : String) :
    Except RouterError HttpReply → Except RouterError (List WireRule)
  | .error e => .error e
  | .ok reply =>
    if reply.status = 404 then .error (.notFound what)
    else
      let body := receivedBody reply
      match (Json.parse body).bind Envelope.ofJson with
      | none =>
        if isSuccess reply.status then .error .undecodable
        else .error (.api reply.status (String.ofList (body.toList.take 200)))
      | some e =>
        if e.code = "ok" ∧ isSuccess reply.status then .ok e.rules
        else
          let message := e.message.getD e.code
          if occursIn "NotFound".toList message.toList then .error (.notFound what)
          else .error (.api reply.status message)

/-- What calls about the collection are about. -/
def whole : String := "collection"

/-- The rule that a call made, from the rules in its reply. -/
def single (call : String) : List WireRule → Except RouterError RouterRule
  | [] => .error (.invalidResponse (call ++ " returned no rule"))
  | r :: _ =>
    match r.toRule with
    | .ok rule => .ok rule
    | .error complaint => .error (.invalidResponse complaint)

/-- All rules, by the reply to `listRequest?`. -/
def listed (reply : Except RouterError HttpReply) :
    Except RouterError (List RouterRule) :=
  (decode whole reply).map WireRule.listed

/-- The new rule, by the reply to `addRequest?`. -/
def added (reply : Except RouterError HttpReply) : Except RouterError RouterRule := do
  single "create" (← decode whole reply)

/-- The overwritten rule, by the reply to `updateRequest?`; a reply without rules
means that it is as was asked. -/
def updated (id : String) (spec : RuleSpec) (reply : Except RouterError HttpReply) :
    Except RouterError RouterRule := do
  match ← decode id reply with
  | [] => return ⟨id, spec⟩
  | rules => single "update" rules

/-- Whether the rule is gone, by the reply to `removeRequest?`. -/
def removed (id : String) (reply : Except RouterError HttpReply) :
    Except RouterError Unit := do
  let _ ← decode id reply
  return ()

/-- Whether the router takes calls, by the reply to `listRequest?`: a refusal is an
answer too. -/
def ready (reply : Except RouterError HttpReply) : Except RouterError Bool :=
  match listed reply with
  | .ok _ => .ok true
  | .error (.api _ _) => .ok false
  | .error e => .error e

end RestClient

end PortForwarding
