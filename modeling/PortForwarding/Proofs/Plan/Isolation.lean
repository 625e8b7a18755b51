import PortForwarding.Proofs.Desired
import PortForwarding.Proofs.Plan.Agreement
import PortForwarding.Proofs.Plan.Revalidation
import PortForwarding.Proofs.Reservations.Acts

/-!
# Services keep clear of each other

A takeover overwrites the rule of anybody. What protects the rules of a Service
from the plans of another is not who owns them but whose the external port is: a
plan brings a rule to the slot of a wanted one, overwrites what is on that very
slot, or deletes what the Service owns (`Confined`), and the external ports of
wanted rules are reserved.

The listings may tell anything, a rule twice included, and the two that a plan is
made from need not have a rule in common.
-/

namespace PortForwarding

open Listing Operation

namespace Plan

/-! ## What a plan is confined to -/

/-- **What an operation addresses** on behalf of a Service: it brings what is
asked for, overwrites what is on the slot of that, or deletes what is owned. -/
structure Confined (key : ServiceKey) (desired : List DesiredRule)
    (rules : List RouterRule) (op : Operation) : Prop where
  brings : op.kind ≠ .delete → op.rule ∈ desired
  /-- The rule may be as it was in an earlier listing, but it still is on the
  same slot. -/
  overwrites : op.kind = .update → ∃ e, op.existing = some e ∧ e.slot = op.slot ∧
    ∃ r ∈ rules, r.id = e.id ∧ r.slot = e.slot
  deletes : op.kind = .delete → ∃ e ∈ rules, op.existing = some e ∧ e.isOwnedBy key = true

/-- **An operation has nothing to do with what another Service has.** -/
structure KeepsClear (reserved : Reservations) (other : ServiceKey)
    (rules : List RouterRule) (op : Operation) : Prop where
  brings : op.kind ≠ .delete → reserved.holder? op.slot.external ≠ some other
  overwrites : op.kind = .update → ∃ e, op.existing = some e ∧
    reserved.holder? e.slot.external ≠ some other ∧ ∃ r ∈ rules, r.id = e.id ∧
      r.slot = e.slot
  deletes : op.kind = .delete →
    ∃ e ∈ rules, op.existing = some e ∧ e.isOwnedBy other = false

section

variable {key other : ServiceKey} {desired : List DesiredRule}
  {first rules : List RouterRule} {op : Operation} {d : DesiredRule}
  {r : RouterRule} {reason : Reason}

/-- Who has the external ports of what is asked for keeps clear of
everybody else. -/
theorem Confined.keepsClear {reserved : Reservations}
    (h : Confined key desired rules op) (hne : other ≠ key)
    (hports : ∀ d ∈ desired, reserved.holder? d.slot.external = some key) :
    KeepsClear reserved other rules op := by
  have hclear : op.rule ∈ desired → reserved.holder? op.slot.external ≠ some other := by
    intro hd hother
    exact hne (Option.some.inj (hother.symm.trans (hports op.rule hd)))
  refine ⟨fun hk => hclear (h.brings hk), fun hk => ?_, fun hk => ?_⟩
  · obtain ⟨e, hex, hslot, hstill⟩ := h.overwrites hk
    refine ⟨e, hex, ?_, hstill⟩
    rw [hslot]
    exact hclear (h.brings (by simp [hk]))
  · obtain ⟨e, he, hex, howned⟩ := h.deletes hk
    refine ⟨e, he, hex, Bool.eq_false_iff.mpr fun hother => hne ?_⟩
    exact RuleSpec.isOwnedBy_unique hother howned

theorem confined_create (hd : d ∈ desired) :
    Confined key desired rules (.create d reason) :=
  ⟨fun _ => hd, fun hk => absurd hk (by simp [create]), fun hk =>
    absurd hk (by simp [create])⟩

theorem confined_update {ms : List Mismatch} (hd : d ∈ desired)
    (hslot : r.slot = d.slot)
    (hstill : ∃ s ∈ rules, s.id = r.id ∧ s.slot = r.slot) :
    Confined key desired rules (.update d r reason ms) :=
  ⟨fun _ => hd, fun _ => ⟨r, rfl, hslot, hstill⟩, fun hk => absurd hk (by simp [update])⟩

theorem confined_deleteOwned (hr : r ∈ ownedRules key rules)
    (h : deleteOwned? r reason = some op) : Confined key desired rules op := by
  obtain ⟨gone, -, rfl⟩ := Option.map_eq_some_iff.mp h
  obtain ⟨hmem, howned⟩ := List.mem_filter.mp hr
  exact ⟨fun hk => absurd rfl hk, fun hk => absurd hk (by simp [delete]),
    fun _ => ⟨r, hmem, rfl, howned⟩⟩

/-! ## The plan after a change -/

open Takeover Adjustment in
/-- **The plan after a change is confined**, whatever either listing tells. -/
theorem confined_planFor (hasked : Asked key desired)
    (hop : op ∈ planFor key desired rules (revalidate
      (detect key desired first) rules)) :
    Confined key desired rules op := by
  have hparts := (planFor_perm_takeovers key rules _ hasked.slots_nodup).mem_iff.mp hop
  rw [List.mem_append, List.mem_append] at hparts
  rcases hparts with htakeover | hdelete | hstep
  · obtain ⟨d, hd, hleft⟩ := mem_revalidate_detect.mp htakeover
    obtain ⟨e, rfl, -, hslot, hstill⟩ := surviving?_eq_some hleft
    exact confined_update hd hslot hstill
  · obtain ⟨r, hr, hdelete⟩ := List.mem_filterMap.mp hdelete
    exact confined_deleteOwned (mem_owned_of_surplus hr) hdelete
  · obtain ⟨d, hd, hstep⟩ := List.mem_filterMap.mp hstep
    rcases step?_eq_some hstep with ⟨r, hr, hslot, rfl⟩ | rfl
    · exact confined_update hd hslot ⟨r, (List.mem_filter.mp hr).1, rfl, rfl⟩
    · exact confined_create hd

/-! ## The correction of drift -/

/-- A wrong rule is overwritten on its slot, or deleted and made anew as a
wanted one. -/
theorem confined_correction (hd : d ∈ desired) (hr : r ∈ rules)
    (hmoved : r.slot ≠ d.slot → r ∈ ownedRules key rules)
    (hop : op ∈ (WrongRule.of d r).correction) : Confined key desired rules op := by
  by_cases hslot : r.slot = d.slot
  · obtain ⟨reason, ms, hcorrection⟩ := WrongRule.correction_of_slot_eq hslot
    rw [hcorrection] at hop
    obtain rfl := List.mem_singleton.mp hop
    exact confined_update hd hslot ⟨r, hr, rfl, rfl⟩
  · unfold WrongRule.correction at hop
    rw [WrongRule.isRisky_iff.mpr hslot] at hop
    rcases List.mem_append.mp hop with hop | hop
    · exact confined_deleteOwned (hmoved hslot) (Option.mem_toList.mp hop)
    · obtain rfl := List.mem_singleton.mp hop
      exact confined_create hd

open Drift in
theorem confined_operations {free : List RouterRule} (hd : d ∈ desired)
    (hfree : free ⊆ ownedRules key rules)
    (hop : op ∈ operations (d, (matchRule key rules free d).1)) :
    Confined key desired rules op := by
  have hout : Outcome key rules free d (matchRule key rules free d) := matchRule_outcome
  generalize matchRule key rules free d = outcome at hout hop
  cases hout with
  | same r mem slot _ =>
      split at hop
      · exact absurd hop List.not_mem_nil
      · exact confined_correction hd (List.mem_filter.mp (hfree mem)).1
          (fun hne => absurd slot hne) hop
  | foreign r mem slot _ _ =>
      exact confined_correction hd mem (fun hne => absurd slot hne) hop
  | moved r mem _ _ _ =>
      exact confined_correction hd (List.mem_filter.mp (hfree mem)).1
        (fun _ => hfree mem) hop
  | missing =>
      obtain rfl := List.mem_singleton.mp hop
      exact confined_create hd

open Drift in
theorem confined_matchAll {free : List RouterRule} {wanted : List DesiredRule}
    (hwanted : wanted ⊆ desired) (hfree : free ⊆ ownedRules key rules) :
    (∀ op ∈ (matchAll key rules free wanted).1.flatMap operations,
      Confined key desired rules op) ∧
    (matchAll key rules free wanted).2 ⊆ ownedRules key rules := by
  induction wanted generalizing free with
  | nil => exact ⟨fun op hop => absurd hop List.not_mem_nil, hfree⟩
  | cons d wanted ih =>
      have hd : d ∈ desired := hwanted List.mem_cons_self
      have hleft : (matchRule key rules free d).2 ⊆ ownedRules key rules :=
        fun r hr => hfree (matchRule_sublist.subset hr)
      obtain ⟨hrest, hextra⟩ :=
        ih (fun d' hd' => hwanted (List.mem_cons_of_mem _ hd')) hleft
      refine ⟨fun op hop => ?_, hextra⟩
      rcases List.mem_append.mp hop with hnow | hlater
      · exact confined_operations hd hfree hnow
      · exact hrest op hlater

open Drift in
/-- **The correction of drift is confined**, whatever the listing tells. -/
theorem confined_correctionPlan {reference : ObjectReference}
    (hop : op ∈ (compare key reference desired rules).correctionPlan) :
    Confined key desired rules op := by
  obtain ⟨hmatched, hextra⟩ := confined_matchAll (List.Subset.refl desired)
    (List.Subset.refl (ownedRules key rules))
  rcases List.mem_append.mp
    ((correctionPlan_perm key reference desired rules).mem_iff.mp hop)
    with hop | hop
  · exact hmatched op hop
  · obtain ⟨r, hr, hdelete⟩ := List.mem_filterMap.mp hop
    exact confined_deleteOwned (hextra hr) hdelete

end

/-! ## The reserved ports -/

section

variable {reservations after : Reservations} {view : ServiceView}
  {defaults : RuleDefaults} {desired : List DesiredRule}

/-- Rules that were worked out with success are asked for, and their ports
reserved. -/
theorem reserved_of_calculate
    (h : Desired.calculate reservations view defaults = .ok (desired, after)) :
    Asked view.key desired ∧
      ∀ d ∈ desired, after.holder? d.slot.external = some view.key := by
  unfold Desired.calculate at h
  split at h
  · exact absurd h (by simp)
  · next rules hrules =>
      split at h
      · exact absurd h (by simp)
      · next claimed hclaim =>
          obtain ⟨rfl, rfl⟩ := Prod.mk.inj (Except.ok.inj h)
          refine ⟨(Desired.rulesFor_wanted hrules).asked, fun d hd => ?_⟩
          have hport : d.slot.external ∈ Desired.externalPorts rules :=
            List.mem_map_of_mem hd
          rw [(Reservations.holder?_of_claim hclaim).2, if_pos hport]

/-- **Services are isolated by reservations.** From when a Service has worked out
its rules until it gives a port back, and whatever happens to the reservations
besides, neither of its plans comes to a port of another Service or deletes what
another owns. -/
theorem plans_isolated {acts : List Reservations.Act} {other : ServiceKey}
    (h : Desired.calculate reservations view defaults = .ok (desired, after))
    (hacts : Reservations.GivesNothingBack view.key after acts)
    (hne : other ≠ view.key) :
    (∀ first rules, ∀ op ∈ planFor view.key desired rules
        (Takeover.revalidate (Takeover.detect view.key desired first) rules),
      KeepsClear (after.after acts) other rules op) ∧
    ∀ reference rules,
      ∀ op ∈ (Drift.compare view.key reference desired rules).correctionPlan,
      KeepsClear (after.after acts) other rules op := by
  obtain ⟨hasked, hports⟩ := reserved_of_calculate h
  have hkept : ∀ d ∈ desired, (after.after acts).holder? d.slot.external =
      some view.key :=
    fun d hd => Reservations.holder?_after hacts (hports d hd)
  constructor
  · intro first rules op hop
    exact (confined_planFor hasked hop).keepsClear hne hkept
  · intro reference rules op hop
    exact (confined_correctionPlan hop).keepsClear hne hkept

end

/-! ## A rule that has strayed to the port of another Service -/

namespace Sample

open Reservations Reservations.Sample

def reserved : Reservations :=
  (Act.calculate web {}).next ((Act.calculate api {}).next .empty)

def stray : RouterRule :=
  ⟨"s", { webRule.spec with slot := apiRule.spec.slot }⟩

def handmade : RouterRule :=
  ⟨"h", { webRule.spec with name := "by hand" }⟩

def first : List RouterRule :=
  [handmade, ⟨"a", apiRule.spec⟩]

def listing : List RouterRule :=
  [⟨"a", apiRule.spec⟩, stray, handmade]

def meanwhile : List Act :=
  [.claim api.key [8443]]

def plan : List Operation :=
  planFor web.key [webRule] listing
    (Takeover.revalidate (Takeover.detect web.key [webRule] first) listing)

end Sample

open Reservations.Sample Plan.Sample in
theorem plans_isolated_sample :
    Desired.calculate ((Reservations.Act.calculate api {}).next .empty) web {} =
      .ok ([webRule], reserved) ∧
    Reservations.GivesNothingBack web.key reserved meanwhile ∧ api.key ≠ web.key ∧
    plan.Perm [.update webRule handmade .ownershipTakeover [.ownership, .name],
      .delete ⟨.of web.key "http", stray.spec⟩ stray .portNoLongerDesired] ∧
    (∀ op ∈ plan, KeepsClear (reserved.after meanwhile) api.key listing op) ∧
    ∀ op ∈ (Drift.compare web.key web.reference [webRule] listing).correctionPlan,
      KeepsClear (reserved.after meanwhile) api.key listing op := by
  have hok : Desired.calculate ((Reservations.Act.calculate api {}).next .empty) web {} =
      .ok ([webRule], reserved) := by decide +kernel
  have hkeeps : Reservations.GivesNothingBack web.key reserved meanwhile :=
    ⟨fun h => absurd h (by decide), trivial⟩
  have hne : api.key ≠ web.key := by decide
  obtain ⟨hplan, hdrift⟩ := plans_isolated hok hkeeps hne
  refine ⟨hok, hkeeps, hne, ?_, hplan first listing, hdrift web.reference listing⟩
  exact (planFor_perm_takeovers web.key listing _ (by decide)).trans (by decide +kernel)

end Plan

end PortForwarding
