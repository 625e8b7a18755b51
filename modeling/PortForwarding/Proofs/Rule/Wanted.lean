import Mathlib.Data.List.Nodup
import PortForwarding.Proofs.Rule.Owner

/-!
# What a Service wants, and when a rule is as wanted

`Wanted` is what every list of desired rules satisfies that is worked out for one
Service: its rules are named for owners of that Service and no two of them want
the same slot. `Meets` compares a wanted rule with a rule on the router in
everything that an update would mend; no difference is listed exactly where an
owned rule meets what is wanted (`mismatches_eq_nil_iff`).
-/

namespace PortForwarding

structure ServiceKey.Valid (key : ServiceKey) : Prop where
  «namespace» : Owner.isName key.namespace.toList = true
  name : Owner.isName key.name.toList = true

/-- The rules are wanted by one Service: one rule on a slot, and each under the
name of an owner that is a port of the Service. -/
structure Wanted (key : ServiceKey) (desired : List DesiredRule) : Prop where
  slots_nodup : (desired.map DesiredRule.slot).Nodup
  owner : ∀ d ∈ desired, d.owner.key = key
  /-- An annotation names no other ports, and no other name is read back to
  its owner. -/
  port : ∀ d ∈ desired, Owner.isName d.owner.port.toList = true
  name : ∀ d ∈ desired, d.spec.name = d.owner.text

/-- The rules are asked for by one Service, and no two of them on one slot. They
may have any names. -/
structure Asked (key : ServiceKey) (desired : List DesiredRule) : Prop where
  slots_nodup : (desired.map DesiredRule.slot).Nodup
  owner : ∀ d ∈ desired, d.owner.key = key

/-- The rule on the router has the settings that are wanted. -/
structure Meets (d : DesiredRule) (r : RouterRule) : Prop where
  slot : r.slot = d.slot
  name : r.spec.name = d.spec.name
  destination : r.spec.destination = d.spec.destination
  enabled : r.spec.enabled = d.spec.enabled
  source : r.spec.source = d.spec.source

section

variable {key : ServiceKey} {desired : List DesiredRule} {d d' : DesiredRule}
  {r : RouterRule}

theorem Wanted.asked (h : Wanted key desired) : Asked key desired :=
  ⟨h.slots_nodup, h.owner⟩

theorem Wanted.owner_valid (hkey : key.Valid) (h : Wanted key desired)
    (hd : d ∈ desired) : d.owner.Valid := by
  have howner := h.owner d hd
  subst howner
  exact ⟨hkey.namespace, hkey.name, h.port d hd⟩

theorem Wanted.isOwnedBy (hkey : key.Valid) (h : Wanted key desired)
    (hd : d ∈ desired) (hname : r.spec.name = d.spec.name) :
    r.isOwnedBy key = true := by
  rw [← h.owner d hd]
  exact RouterRule.isOwnedBy_of_name (h.owner_valid hkey hd) (hname.trans (h.name d hd))

theorem Asked.eq_of_slot_eq (h : Asked key desired) (hd : d ∈ desired)
    (hd' : d' ∈ desired) (hslot : d.slot = d'.slot) : d = d' :=
  List.inj_on_of_nodup_map h.slots_nodup hd hd' hslot

theorem Meets.of_spec_eq (h : r.spec = d.spec) : Meets d r :=
  ⟨by unfold RouterRule.slot DesiredRule.slot; rw [h], by rw [h], by rw [h], by
  rw [h], by rw [h]⟩

/-- **No difference is listed exactly where an owned rule is as wanted.** -/
theorem mismatches_eq_nil_iff :
    mismatches d r = [] ↔ r.isOwnedBy d.owner.key = true ∧ Meets d r := by
  have hall : mismatches d r = [] ↔ ∀ m ∈ Mismatch.all, Mismatch.holds d r m = false := by
    unfold mismatches
    rw [List.filter_eq_nil_iff]
    simp
  rw [hall]
  constructor
  · intro h
    have howner := h .ownership (by decide)
    have hexternal := h .externalPort (by decide)
    have hinternal := h .internalPort (by decide)
    have hprotocol := h .protocol (by decide)
    have hname := h .name (by decide)
    have hip := h .ip (by decide)
    have henabled := h .enabled (by decide)
    have hsource := h .source (by decide)
    simp only [Mismatch.holds, Bool.not_eq_false', bne_eq_false_iff_eq]
      at howner hexternal hinternal hprotocol hname hip henabled hsource
    refine ⟨howner, ⟨?_, hname.symm, hip.symm, henabled.symm, hsource.symm⟩⟩
    cases hslot : r.slot
    cases hwanted : d.slot
    simp_all
  · rintro ⟨howner, hmeets⟩ m -
    cases m <;> simp [Mismatch.holds, howner, hmeets.slot, hmeets.name,
      hmeets.destination, hmeets.enabled, hmeets.source]

theorem mismatches_ne_nil_of_foreign (howner : d.owner.key = key)
    (h : r.isOwnedBy key = false) : mismatches d r ≠ [] := by
  intro hnil
  have howned := (mismatches_eq_nil_iff.mp hnil).1
  rw [howner, h] at howned
  exact Bool.noConfusion howned

end

/-! ## A Service with three ports -/

namespace Sample

def key : ServiceKey := ⟨"default", "web"⟩

def wish (port : String) (external internal : UInt16) : DesiredRule :=
  { owner := .of key port
    spec := {
      name := (Owner.of key port).text
      slot := ⟨external, internal, .tcp⟩
      destination := .v4 10 0 0 5
      enabled := true
      interface := "wan"
      source := none } }

def desired : List DesiredRule :=
  [wish "http" 80 8080, wish "https" 443 8443, wish "admin" 9001 9000]

/-- A rule that was typed in by hand on the slot of a wanted one, an owned rule
that was made twice, and an owned rule that is wanted on another slot. -/
def rules : List RouterRule :=
  [⟨"a", { (wish "http" 80 8080).spec with name := "by hand" }⟩,
    ⟨"b", (wish "https" 443 8443).spec⟩,
    ⟨"c", (wish "https" 443 8443).spec⟩,
    ⟨"d", (wish "admin" 9000 9000).spec⟩]

def fresh (n : Nat) : String :=
  String.ofList (List.replicate n 'i')

theorem key_valid : key.Valid :=
  ⟨by decide, by decide⟩

theorem wanted : Wanted key desired :=
  ⟨by decide, by decide, by decide, by decide⟩

end Sample

end PortForwarding
