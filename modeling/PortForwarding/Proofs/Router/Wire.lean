import PortForwarding.Proofs.Address.RoundTrip
import PortForwarding.Proofs.Desired
import PortForwarding.Proofs.Json.Row
import PortForwarding.Proofs.Plan.Idle
import PortForwarding.Proofs.Service.View
import PortForwarding.Router.Rest

/-!
# Rules read back as they were written

A rule goes to the router as JSON with its ports and its address as text, and
comes back with the identifier that the router has given it. Every field that is
written is read as it was (`WireRule.toRule_ofSpec`), whatever the order of the
members. The source alone is read through a normal form; a source that is in it
already, as every rule's of a Service is, reads back too. So the operator finds no
difference in a rule that it has written itself (`Desired.rule_reads_back`).
-/

namespace PortForwarding

open Json

/-! ## Words -/

theorem Protocol.parse_text (p : Protocol) : Protocol.parse p.text = some p := by
  cases p <;> decide

/-- A rule that lets everything through says so in the word that means nothing. -/
theorem ServiceView.restriction?_any : ServiceView.restriction? "any" = none := by
  decide

/-! ## Rules on the wire -/

namespace WireRule

variable {members : List (String × Json)} {spec : RuleSpec} {id : String}

theorem row_toJson (r : WireRule) :
    r.toJson.row ["_id", "name", "enabled", "pfwd_interface", "src", "dst_port",
      "fwd", "fwd_port", "proto", "log"] =
      some [r.id.map .str, some (.str r.name), some (.bool r.enabled),
        some (.str r.interface), some (.str r.source), some (.str r.externalPort),
        some (.str r.destination), some (.str r.internalPort),
        some (.str r.protocol), some (.bool r.log)] := by
  obtain ⟨id, name, enabled, interface, source, external, destination, internal,
    protocol, log⟩ := r
  cases id <;> simp [toJson, row, rowOfMembers, valuesOf]

/-- **A rule on the wire is read back**, in whatever order its members come. -/
theorem ofJson_of_perm {r : WireRule} (h : members.Perm r.toJson.members) :
    ofJson (.obj members) = some r := by
  have hrow := row_toJson r
  unfold toJson at h hrow
  unfold ofJson
  rw [row_perm h]
  simp only [Json.members]
  rw [hrow]
  simp only [required, defaulted, text?, bool?, optional_text, Option.bind_eq_bind,
    Option.bind_some]
  rfl

/-- **What was sent for a rule is received as this rule**, under the identifier it
was given, where its source is in normal form. -/
theorem toRule_ofSpec (id : String)
    (hsource : ∀ source ∈ spec.source, ServiceView.restriction? source =
      some source) :
    toRule { ofSpec spec with id := some id } = .ok ⟨id, spec⟩ := by
  have hread : ServiceView.restriction? (spec.source.getD "any") = spec.source := by
    cases hnone : spec.source with
    | none => exact ServiceView.restriction?_any
    | some source => exact hsource source hnone
  unfold toRule ofSpec
  simp only [orComplain, Text.readWord_showNat, Address.parse_text,
    Protocol.parse_text, hread]
  rfl

/-- What is sent for a rule, with an identifier added to it anywhere. -/
def Kept (id : String) (spec : RuleSpec) (item : Json) : Prop :=
  ∃ members, item = .obj members ∧
    members.Perm (("_id", .str id) :: (ofSpec spec).toJson.members)

theorem Kept.ofJson {item : Json} (h : Kept id spec item) :
    WireRule.ofJson item = some { ofSpec spec with id := some id } := by
  obtain ⟨members, rfl, hmembers⟩ := h
  exact ofJson_of_perm hmembers

/-- Rules that are kept as they were sent are listed as they were sent. -/
theorem listed_of_kept {placed : List RouterRule} {items : List Json}
    (hitems : List.Forall₂ (fun r item => Kept r.id r.spec item) placed items)
    (hsources : ∀ r ∈ placed, ∀ source ∈ r.spec.source,
      ServiceView.restriction? source = some source) :
    ∃ rs, items.mapM WireRule.ofJson = some rs ∧ listed rs = placed := by
  induction hitems with
  | nil => exact ⟨[], rfl, rfl⟩
  | @cons r item placed items hitem _ ih =>
      obtain ⟨rs, hrs, hlisted⟩ := ih fun r hr => hsources r (List.mem_cons_of_mem _ hr)
      have hrule := toRule_ofSpec r.id (hsources r List.mem_cons_self)
      refine ⟨{ ofSpec r.spec with id := some r.id } :: rs,
        by simp [List.mapM_cons, hitem.ofJson, hrs], ?_⟩
      unfold listed at hlisted ⊢
      rw [List.filterMap_cons, hrule, hlisted]
      rfl

end WireRule

/-! ## Listings -/

def Envelope.listing (items : List Json) : Json :=
  .obj [("meta", .obj [("rc", .str "ok")]), ("data", .arr items)]

/-- The envelope of a call that went well, with these items in it. -/
def Envelope.Carries (doc : Json) (items : List Json) : Prop :=
  ∃ head message, doc.row ["meta", "data"] = some [some head, some (.arr items)] ∧
    headOfJson head = some ("ok", message)

theorem Envelope.carries_listing (items : List Json) :
    Carries (listing items) items :=
  ⟨_, none, rfl, rfl⟩

theorem Envelope.ofJson_of_carries {doc : Json} {items : List Json}
    (h : Carries doc items) :
    ∃ message, ofJson doc = (listOf? WireRule.ofJson (.arr items)).map
      fun rules => ⟨"ok", message, rules⟩ := by
  obtain ⟨head, message, hrow, hhead⟩ := h
  refine ⟨message, ?_⟩
  unfold ofJson
  rw [hrow]
  simp only [required, hhead, defaulted, Option.bind_eq_bind, Option.bind_some]
  cases listOf? WireRule.ofJson (.arr items) <;> rfl

namespace RestClient

/-- **What is made of a listing**: all of its items are read as rules on the wire,
or none. -/
theorem listed_of_carries {reply : HttpReply} {doc : Json} {items : List Json}
    (hsuccess : isSuccess reply.status = true)
    (hbody : Json.parse (receivedBody reply) = some doc)
    (hdoc : Envelope.Carries doc items) :
    listed (.ok reply) = match listOf? WireRule.ofJson (.arr items) with
      | some rules => .ok (WireRule.listed rules)
      | none => .error .undecodable := by
  obtain ⟨message, henvelope⟩ := Envelope.ofJson_of_carries hdoc
  have hfound : reply.status ≠ 404 := by
    intro h
    rw [h] at hsuccess
    exact absurd hsuccess (by decide)
  simp only [listed, decode, if_neg hfound, hbody, Option.bind_some, henvelope]
  cases listOf? WireRule.ofJson (.arr items) with
  | none => simp [hsuccess, Except.map]
  | some rules => simp [hsuccess, Except.map]

theorem listed_listing (items : List Json) :
    listed (.ok ⟨200, (Envelope.listing items).text⟩) =
      match listOf? WireRule.ofJson (.arr items) with
      | some rules => .ok (WireRule.listed rules)
      | none => .error .undecodable :=
  listed_of_carries rfl (parse_text _) (Envelope.carries_listing items)

/-- **A listing of rules that are kept as they were sent is read as these
rules.** -/
theorem listed_of_kept {placed : List RouterRule} {items : List Json}
    (hitems : List.Forall₂ (fun r item =>
      WireRule.Kept r.id r.spec item) placed items)
    (hsources : ∀ r ∈ placed, ∀ source ∈ r.spec.source,
      ServiceView.restriction? source = some source) :
    listed (.ok ⟨200, (Envelope.listing items).text⟩) = .ok placed := by
  obtain ⟨rs, hrs, hlisted⟩ := WireRule.listed_of_kept hitems hsources
  have hread : listOf? WireRule.ofJson (.arr items) = some rs := hrs
  rw [listed_listing, hread]
  exact congrArg Except.ok hlisted

end RestClient

/-! ## The operator's own rules -/

namespace Desired

variable {view : ServiceView} {defaults : RuleDefaults} {rules : List DesiredRule}
  {r : DesiredRule} {id : String} {item : Json}

/-- **A rule of a Service reads back as it was written.** The text that is sent
for it, with an identifier added anywhere among its members, is read as the rule
with this identifier and exactly its settings. No difference is found in it. -/
theorem rule_reads_back (hkey : view.key.Valid)
    (hrules : rulesFor view defaults = .ok rules) (hr : r ∈ rules)
    (hitem : WireRule.Kept id r.spec item) :
    ∃ w, (Json.parse item.text).bind WireRule.ofJson = some w ∧
      w.toRule = .ok ⟨id, r.spec⟩ ∧ WireRule.listed [w] = [⟨id, r.spec⟩] ∧
      mismatches r ⟨id, r.spec⟩ = [] := by
  have hwanted := rulesFor_wanted hrules
  have hsource : ∀ source ∈ r.spec.source, ServiceView.restriction? source =
      some source := by
    rw [rulesFor_source hrules r hr]
    exact fun source hs => ServiceView.restriction?_of_source? hs
  have hrule := WireRule.toRule_ofSpec id hsource
  refine ⟨{ WireRule.ofSpec r.spec with id := some id }, ?_, hrule, ?_, ?_⟩
  · rw [Json.parse_text, Option.bind_some]
    exact hitem.ofJson
  · unfold WireRule.listed
    rw [List.filterMap_cons, hrule]
    rfl
  · refine mismatches_eq_nil_iff.mpr ⟨?_, Meets.of_spec_eq rfl⟩
    rw [hwanted.owner r hr]
    exact hwanted.isOwnedBy hkey hr rfl

/-- **A Service whose rules are on the router as they were sent shows no drift.** -/
theorem calm_of_kept (reference : ObjectReference) (hkey : view.key.Valid)
    (hrules : rulesFor view defaults = .ok rules) {placed : List RouterRule}
    {items : List Json} (hids : (Listing.ids placed).Nodup)
    (hplaced : List.Forall₂ (fun d r => r.spec = d.spec) rules placed)
    (hitems : List.Forall₂ (fun r item =>
      WireRule.Kept r.id r.spec item) placed items) :
    ∃ listing,
      RestClient.listed (.ok ⟨200, (Envelope.listing items).text⟩) = .ok listing ∧
      (Drift.compare view.key reference rules listing).any = false := by
  have hwanted := rulesFor_wanted hrules
  have howned : ownedRules view.key placed = placed := by
    refine List.filter_eq_self.mpr fun r hr => ?_
    obtain ⟨d, hd, hspec⟩ := exists_of_mem_forall₂ hplaced hr
    exact hwanted.isOwnedBy hkey hd (congrArg RuleSpec.name hspec)
  have hsources : ∀ r ∈ placed, ∀ source ∈ r.spec.source,
      ServiceView.restriction? source = some source := by
    intro r hr source hsource
    obtain ⟨d, hd, hspec⟩ := exists_of_mem_forall₂ hplaced hr
    rw [hspec, rulesFor_source hrules d hd] at hsource
    exact ServiceView.restriction?_of_source? hsource
  refine ⟨placed, RestClient.listed_of_kept hitems hsources, ?_⟩
  refine (Drift.calm_iff_paired reference hwanted.asked hids).mpr ⟨placed, ?_, ?_⟩
  · rw [howned]
  · exact hplaced.imp fun d r hspec => Meets.of_spec_eq hspec

end Desired

namespace Sample

def guarded : ServiceView :=
  { key := key
    annotations := [(Mark.ports, "http:8443"), (Mark.source, "\t Büro\u2003")]
    ports := [⟨"http", 443, "TCP"⟩]
    destination := some (.v6 #v[0x2001, 0xdb8, 0, 0, 1, 0, 0, 0x17])
    deleting := false
    hasFinalizer := true
    reference := default }

def guardedRule : DesiredRule :=
  { owner := .of key "http"
    spec := {
      name := "default/web:http"
      slot := ⟨8443, 443, .tcp⟩
      destination := .v6 #v[0x2001, 0xdb8, 0, 0, 1, 0, 0, 0x17]
      enabled := true
      interface := "wan"
      source := some "Büro" } }

theorem rulesFor_guarded : Desired.rulesFor guarded {} = .ok [guardedRule] := by
  decide +kernel

end Sample

open Sample in
theorem Desired.rule_reads_back_guarded :
    ∃ w, (Json.parse (Json.obj ((WireRule.ofSpec guardedRule.spec).toJson.members ++
        [("_id", .str "r1")])).text).bind WireRule.ofJson = some w ∧
      w.toRule = .ok ⟨"r1", guardedRule.spec⟩ ∧
      WireRule.listed [w] = [⟨"r1", guardedRule.spec⟩] ∧
      mismatches guardedRule ⟨"r1", guardedRule.spec⟩ = [] :=
  rule_reads_back key_valid rulesFor_guarded List.mem_cons_self
    ⟨_, rfl, List.perm_append_comm⟩

end PortForwarding
