import PortForwarding.Proofs.Router.Wire

/-!
# Listings with odd rules

On the router are rules of any origin, and a listing has an object for each of
them. The objects are read in two stages. First each is read as a rule on the
wire, which asks for its fields and for the kind of their values
(`WireRule.ReadFrom`). Then a rule is made of it, which asks for what the values
say (`WireRule.Stands`). An object that fails at the second stage is passed over.
The first stage is one reading of the whole listing, and an object that fails
there takes all the others with it.

- `WireRule.ofJson_eq_some_iff`, `WireRule.toRule_eq_ok_iff`: what each stage asks
  for.
- `RestClient.listed_exact`: what is listed where every object is legible, and
  that nothing is listed where one is not.
-/

namespace PortForwarding

open Json

theorem bind_eq_ok_iff {ε α β : Type} {x : Except ε α} {f : α → Except ε β} {b : β} :
    x >>= f = .ok b ↔ ∃ a, x = .ok a ∧ f a = .ok b := by
  cases x <;> simp [bind, Except.bind]

/-! ## The two stages -/

namespace WireRule

variable {members : List (String × Json)} {w : WireRule} {r : RouterRule}

/-- The members of an object are those of a rule on the wire: five texts that have
to be there, and further fields that have a value of their own where they are not.
Nothing is asked of other members, and nothing of what the texts say. -/
structure ReadFrom (members : List (String × Json)) (w : WireRule) : Prop where
  name : Tells members "name" (some (.str w.name))
  externalPort : Tells members "dst_port" (some (.str w.externalPort))
  destination : Tells members "fwd" (some (.str w.destination))
  internalPort : Tells members "fwd_port" (some (.str w.internalPort))
  protocol : Tells members "proto" (some (.str w.protocol))
  id : Tells members "_id" (w.id.map .str) ∨
    w.id = none ∧ Tells members "_id" (some .null)
  enabled : Tells members "enabled" (some (.bool w.enabled)) ∨
    w.enabled = false ∧ Tells members "enabled" none
  interface : Tells members "pfwd_interface" (some (.str w.interface)) ∨
    w.interface = "wan" ∧ Tells members "pfwd_interface" none
  source : Tells members "src" (some (.str w.source)) ∨
    w.source = "any" ∧ Tells members "src" none
  log : Tells members "log" (some (.bool w.log)) ∨
    w.log = false ∧ Tells members "log" none

/-- The object can be read as a rule on the wire, whatever its texts say. -/
def Legible (members : List (String × Json)) : Prop :=
  ∃ w, ReadFrom members w

/-- **The first stage.** -/
theorem ofJson_eq_some_iff : ofJson (.obj members) = some w ↔ ReadFrom members w := by
  constructor
  · intro h
    unfold ofJson at h
    split at h
    · next hrow =>
        have htells := row_obj_iff.mp hrow
        simp only [List.forall₂_cons] at htells
        obtain ⟨tid, tname, tenabled, tinterface, tsource, texternal,
          tdestination, tinternal, tprotocol, tlog, -⟩ := htells
        simp only [Option.bind_eq_bind, Option.bind_eq_some_iff, Option.pure_def,
          Option.some.injEq] at h
        obtain ⟨id, hid, name, hname, enabled, henabled, interface, hinterface,
          source, hsource, external, hexternal, destination, hdestination,
          internal, hinternal, protocol, hprotocol, log, hlog, rfl⟩ := h
        exact {
          name := (required_iff text?_eq_some_iff).mp ⟨_, tname, hname⟩
          externalPort := (required_iff text?_eq_some_iff).mp ⟨_, texternal, hexternal⟩
          destination :=
            (required_iff text?_eq_some_iff).mp ⟨_, tdestination, hdestination⟩
          internalPort := (required_iff text?_eq_some_iff).mp ⟨_, tinternal, hinternal⟩
          protocol := (required_iff text?_eq_some_iff).mp ⟨_, tprotocol, hprotocol⟩
          id := optional_iff.mp ⟨_, tid, hid⟩
          enabled := (defaulted_iff bool?_eq_some_iff).mp ⟨_, tenabled, henabled⟩
          interface := (defaulted_iff text?_eq_some_iff).mp ⟨_, tinterface, hinterface⟩
          source := (defaulted_iff text?_eq_some_iff).mp ⟨_, tsource, hsource⟩
          log := (defaulted_iff bool?_eq_some_iff).mp ⟨_, tlog, hlog⟩ }
    · exact absurd h (by simp)
  · intro h
    obtain ⟨_, tname, hname⟩ := (required_iff text?_eq_some_iff).mpr h.name
    obtain ⟨_, texternal, hexternal⟩ :=
      (required_iff text?_eq_some_iff).mpr h.externalPort
    obtain ⟨_, tdestination, hdestination⟩ :=
      (required_iff text?_eq_some_iff).mpr h.destination
    obtain ⟨_, tinternal, hinternal⟩ :=
      (required_iff text?_eq_some_iff).mpr h.internalPort
    obtain ⟨_, tprotocol, hprotocol⟩ := (required_iff text?_eq_some_iff).mpr h.protocol
    obtain ⟨_, tid, hid⟩ := optional_iff.mpr h.id
    obtain ⟨_, tenabled, henabled⟩ := (defaulted_iff bool?_eq_some_iff).mpr h.enabled
    obtain ⟨_, tinterface, hinterface⟩ :=
      (defaulted_iff text?_eq_some_iff).mpr h.interface
    obtain ⟨_, tsource, hsource⟩ := (defaulted_iff text?_eq_some_iff).mpr h.source
    obtain ⟨_, tlog, hlog⟩ := (defaulted_iff bool?_eq_some_iff).mpr h.log
    have hrow := row_obj_iff.mpr (.cons tid <| .cons tname <| .cons tenabled <|
      .cons tinterface <| .cons tsource <| .cons texternal <| .cons tdestination <|
      .cons tinternal <| .cons tprotocol <| .cons tlog .nil)
    unfold ofJson
    rw [hrow]
    simp only [hid, hname, henabled, hinterface, hsource, hexternal, hdestination,
      hinternal, hprotocol, hlog, Option.bind_eq_bind, Option.bind_some]
    rfl

theorem legible_iff : Legible members ↔ (ofJson (.obj members)).isSome = true := by
  rw [Option.isSome_iff_exists]
  exact exists_congr fun _ => ofJson_eq_some_iff.symm

instance : Decidable (Legible members) :=
  decidable_of_iff _ legible_iff.symm

/-- The texts of a rule on the wire say a rule: it has an identifier, its ports
are numbers, its destination is an address, and its protocol is known. -/
structure Stands (w : WireRule) (r : RouterRule) : Prop where
  id : w.id = some r.id
  external : Text.readWord w.externalPort = some r.slot.external
  internal : Text.readWord w.internalPort = some r.slot.internal
  destination : Address.parse w.destination = some r.spec.destination
  protocol : Protocol.parse w.protocol = some r.slot.protocol
  name : w.name = r.spec.name
  enabled : w.enabled = r.spec.enabled
  interface : w.interface = r.spec.interface
  source : ServiceView.restriction? w.source = r.spec.source

theorem orComplain_eq_ok_iff {α : Type} {complaint : String} {value : Option α}
    {a : α} : orComplain complaint value = .ok a ↔ value = some a := by
  cases value <;> simp [orComplain]

/-- **The second stage.** -/
theorem toRule_eq_ok_iff : w.toRule = .ok r ↔ w.Stands r := by
  constructor
  · intro h
    unfold toRule at h
    obtain ⟨id, hid, h⟩ := bind_eq_ok_iff.mp h
    obtain ⟨external, hexternal, h⟩ := bind_eq_ok_iff.mp h
    obtain ⟨internal, hinternal, h⟩ := bind_eq_ok_iff.mp h
    obtain ⟨destination, hdestination, h⟩ := bind_eq_ok_iff.mp h
    obtain ⟨protocol, hprotocol, h⟩ := bind_eq_ok_iff.mp h
    obtain rfl := Except.ok.inj h
    rw [orComplain_eq_ok_iff] at hid hexternal hinternal hdestination hprotocol
    refine ⟨hid, hexternal, hinternal, hdestination, hprotocol, rfl, rfl, rfl, ?_⟩
    dsimp only
  · obtain ⟨id, spec⟩ := r
    rintro ⟨hid, hexternal, hinternal, hdestination, hprotocol, hname,
      henabled, hinterface, hsource⟩
    unfold toRule
    simp only [hid, hexternal, hinternal, hdestination, hprotocol, orComplain,
      hname, henabled, hinterface, hsource]
    rfl

/-- The rule that an object stands for when it is read on its own. -/
def alone? (members : List (String × Json)) : Option RouterRule :=
  (ofJson (.obj members)).bind fun w => w.toRule.toOption

/-- **An object is recognised on its own** exactly if it is legible and its texts
say a rule. -/
theorem alone?_eq_some_iff :
    alone? members = some r ↔ ∃ w, ReadFrom members w ∧ w.Stands r := by
  have hrule : ∀ w : WireRule, w.toRule.toOption = some r ↔ w.Stands r := by
    intro w
    rw [← toRule_eq_ok_iff]
    cases w.toRule <;> simp [Except.toOption]
  unfold alone?
  rw [Option.bind_eq_some_iff]
  exact exists_congr fun w => and_congr ofJson_eq_some_iff (hrule w)

end WireRule

/-! ## Listings -/

namespace RestClient

open WireRule

variable {reply : HttpReply} {doc : Json} {objects : List (List (String × Json))}

/-- **One odd rule hides the others only if it is illegible.** A listing of a
call that went well, each of whose objects is legible, is read as the rules that
are recognised in it, in order, each as it would be on its own. Objects that are
legible and say no rule are passed over. Where one object is illegible, nothing
is listed. -/
theorem listed_exact (hsuccess : isSuccess reply.status = true)
    (hbody : Json.parse (receivedBody reply) = some doc)
    (hdoc : Envelope.Carries doc (objects.map .obj)) :
    ((∀ members ∈ objects, Legible members) →
      listed (.ok reply) = .ok (objects.filterMap alone?)) ∧
    ((∃ members ∈ objects, ¬ Legible members) →
      listed (.ok reply) = .error .undecodable) ∧
    ∀ members r, alone? members = some r ↔ ∃ w, ReadFrom members w ∧ w.Stands r := by
  have hlisted := listed_of_carries hsuccess hbody hdoc
  refine ⟨fun hlegible => ?_, fun hillegible => ?_, fun _ _ => alone?_eq_some_iff⟩
  · have hread : ∀ j ∈ objects.map Json.obj, ∃ w, WireRule.ofJson j = some w := by
      intro j hj
      obtain ⟨members, hmembers, rfl⟩ := List.mem_map.mp hj
      exact Option.isSome_iff_exists.mp (legible_iff.mp (hlegible members hmembers))
    rw [hlisted, listOf?_of_forall hread, List.filterMap_map]
    simp only [WireRule.listed, List.filterMap_filterMap]
    rfl
  · obtain ⟨members, hmembers, hnot⟩ := hillegible
    rw [legible_iff, Option.not_isSome_iff_eq_none] at hnot
    rw [hlisted, listOf?_of_mem (List.mem_map_of_mem hmembers) hnot]

end RestClient

/-! ## A listing with rules made by hand -/

namespace Sample

def kept : List (String × Json) :=
  ({ WireRule.ofSpec (wish "http" 80 8080).spec with id := some "r1" }).toJson.members

def ranged : List (String × Json) :=
  setMember "_id" (.str "r2") (setMember "dst_port" (.str "27015-27030") kept)

def nameless : List (String × Json) :=
  setMember "_id" (.str "r2") (dropMember "name" kept)

def listingOf (objects : List (List (String × Json))) : HttpReply :=
  ⟨200, (Envelope.listing (objects.map .obj)).text⟩

end Sample

open Sample RestClient in
theorem RestClient.listed_exact_ranged :
    listed (.ok (listingOf [ranged, kept])) =
      .ok [⟨"r1", (wish "http" 80 8080).spec⟩] := by
  have hlegible : ∀ members ∈ [ranged, kept], WireRule.Legible members := by
    decide +kernel
  have hrules : [ranged, kept].filterMap WireRule.alone? =
      [⟨"r1", (wish "http" 80 8080).spec⟩] := by
    decide +kernel
  have hbody : Json.parse (receivedBody (listingOf [ranged, kept])) =
      some (Envelope.listing ([ranged, kept].map .obj)) := Json.parse_text _
  obtain ⟨hlisted, -, -⟩ := listed_exact (by decide) hbody (Envelope.carries_listing _)
  rw [hlisted hlegible, hrules]

open Sample RestClient in
/-- **One odd rule hides all others.** The rule of the operator is recognised on
its own, and not beside a rule that has no name. -/
theorem RestClient.listed_hidden :
    listed (.ok (listingOf [kept])) = .ok [⟨"r1", (wish "http" 80 8080).spec⟩] ∧
    listed (.ok (listingOf [nameless, kept])) = .error .undecodable := by
  constructor
  · unfold listingOf
    rw [listed_listing]
    decide +kernel
  · unfold listingOf
    rw [listed_listing]
    decide +kernel

end PortForwarding
