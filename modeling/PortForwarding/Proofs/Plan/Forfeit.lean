import PortForwarding.Proofs.Plan.Adjustment
import PortForwarding.Proofs.Plan.Progress

/-!
# Which reservations a plan costs

A deletion gives the port of its rule back unless the plan creates or overwrites a
rule on that port. A wanted rule that is there already is neither created nor
overwritten. So if another owned rule with the same external port is deleted, the
Service loses the port on which it goes on forwarding (`Forfeits`); in all other
cases it keeps the ports that it wants (`holder?_after_planFor`).
-/

namespace PortForwarding

open Listing Operation Takeover

namespace Plan

variable {key : ServiceKey} {desired : List DesiredRule} {rules : List RouterRule}
  {needed : List UInt16} {plan : List Operation} {op : Operation} {r : RouterRule}
  {d : DesiredRule} {held : Reservations} {port : UInt16}

/-! ## Any plan -/

/-- What all deletions of a plan together give back, if they are of one Service. -/
theorem holder?_foldl_giveBack
    (hkey : ∀ op ∈ plan, op.kind = .delete → op.rule.owner.key = key) :
    (plan.foldl (giveBack needed) held).holder? port =
      if (port ∉ needed ∧ ∃ op ∈ plan, op.kind = .delete ∧ op.slot.external = port) ∧
          held.holder? port = some key then none
      else held.holder? port := by
  induction plan generalizing held with
  | nil => simp
  | cons op plan ih =>
      rw [List.foldl_cons, ih fun o ho => hkey o (List.mem_cons_of_mem _ ho)]
      unfold giveBack
      by_cases hgone : op.kind = .delete ∧ op.slot.external ∉ needed
      · rw [if_pos hgone, Reservations.holder?_release,
          hkey op List.mem_cons_self hgone.1]
        by_cases hport : port = op.slot.external
        · subst hport
          by_cases hholder : held.holder? op.slot.external = some key
          · simp [hgone.1, hgone.2, hholder]
          · simp [hholder]
        · simp [hport, Ne.symm hport]
      · rw [if_neg hgone]
        by_cases hport : port ∉ needed ∧ op.kind = .delete ∧ op.slot.external = port
        · obtain ⟨hfree, hk, rfl⟩ := hport
          exact absurd ⟨hk, hfree⟩ hgone
        · congr 1
          rw [eq_iff_iff]
          simp only [List.mem_cons, exists_eq_or_imp]
          tauto

theorem mem_deletions :
    r ∈ deletions plan ↔ ∃ op ∈ plan, op.kind = .delete ∧ op.existing = some r := by
  unfold deletions
  rw [List.mem_filterMap]
  exact exists_congr fun op => and_congr_right fun _ => deleted?_eq_some

/-- The ports that a plan needs are those of the rules that it overwrites
or creates. -/
theorem mem_targetedPorts
    (htargeted : ∀ op ∈ plan, op.kind ≠ .create → op.existing.isSome) :
    port ∈ targetedPorts plan ↔
      (∃ w ∈ rewrites plan, w.2.slot.external = port) ∨
      ∃ d ∈ creations plan, d.slot.external = port := by
  unfold targetedPorts rewrites creations
  simp only [List.mem_map, List.mem_filter, List.mem_filterMap]
  constructor
  · rintro ⟨op, ⟨hop, hk⟩, rfl⟩
    cases hkind : op.kind with
    | delete => exact absurd hk (by simp [hkind])
    | update =>
        obtain ⟨e, hex⟩ :=
          Option.isSome_iff_exists.mp (htargeted op hop (by simp [hkind]))
        exact Or.inl ⟨(e, op.rule),
          ⟨op, hop, rewrite?_eq_some.mpr ⟨hkind, hex, rfl⟩⟩, rfl⟩
    | create => exact Or.inr ⟨op.rule, ⟨op, hop, creation?_eq_some.mpr ⟨hkind, rfl⟩⟩, rfl⟩
  · rintro (⟨w, ⟨op, hop, hw⟩, rfl⟩ | ⟨d, ⟨op, hop, hd⟩, rfl⟩)
    · obtain ⟨hk, -, hrule⟩ := rewrite?_eq_some.mp hw
      refine ⟨op, ⟨hop, by simp [hk]⟩, ?_⟩
      rw [← hrule]
      rfl
    · obtain ⟨hk, rfl⟩ := creation?_eq_some.mp hd
      exact ⟨op, ⟨hop, by simp [hk]⟩, rfl⟩

/-! ## The plan after a change -/

/-- A deletion in the plan is of an owned rule and gives back that rule's port. -/
theorem delete_planFor (hwanted : Wanted key desired)
    (hop : op ∈ planFor key desired rules (detect key desired rules))
    (hk : op.kind = .delete) :
    ∃ r, op.existing = some r ∧ op.slot = r.slot ∧ op.rule.owner.key = key := by
  rcases cases_of_mem_planFor hwanted.asked hop with
    ⟨d, r, reason, ms, rfl⟩ | ⟨r, -, o, hkey, rfl⟩ | ⟨d, reason, rfl⟩
  · exact absurd hk (by simp [update])
  · exact ⟨r, rfl, rfl, hkey⟩
  · exact absurd hk (by simp [create])

/-- The wanted rule is there already, as its own host, and another owned rule has
its external port. -/
def Forfeits (key : ServiceKey) (rules : List RouterRule) (d : DesiredRule) : Prop :=
  ∃ host, host? key rules d = some host ∧ mismatches d host = [] ∧
    ∃ r ∈ ownedRules key rules, r.id ≠ host.id ∧ r.slot.external = d.slot.external

instance : Decidable (Forfeits key rules d) :=
  match h : host? key rules d with
  | none => .isFalse fun ⟨_, hhost, _⟩ => absurd (h.symm.trans hhost) (by simp)
  | some host =>
    decidable_of_iff (mismatches d host = [] ∧
        ∃ r ∈ ownedRules key rules, r.id ≠ host.id ∧ r.slot.external = d.slot.external)
      ⟨fun hall => ⟨host, h, hall⟩, fun ⟨host', hhost, hall⟩ => by
        obtain rfl := Option.some.inj (h.symm.trans hhost)
        exact hall⟩

theorem mem_targetedPorts_planFor (hwanted : Wanted key desired)
    (hports : (Desired.externalPorts desired).Nodup) (hd : d ∈ desired) :
    d.slot.external ∈
      targetedPorts (planFor key desired rules (detect key desired rules)) ↔
      ¬∃ host, host? key rules d = some host ∧ mismatches d host = [] := by
  have hsettles := settles_planFor rules hwanted
  have hsame : ∀ d' ∈ desired, d'.slot.external = d.slot.external → d' = d :=
    fun d' hd' hport => List.inj_on_of_nodup_map hports hd' hd hport
  rw [mem_targetedPorts hsettles.targeted]
  constructor
  · rintro (⟨⟨e, d'⟩, hw, hport⟩ | ⟨d', hd', hport⟩) ⟨host, hhost, hnil⟩
    · obtain ⟨hmem, hne⟩ := Hosting.mem_rewrites.mp (hsettles.overwrites.mem_iff.mp hw)
      obtain ⟨hmem, hhost'⟩ := mem_hosts.mp hmem
      obtain rfl := hsame d' hmem hport
      obtain rfl := Option.some.inj (hhost.symm.trans hhost')
      exact hne hnil
    · obtain ⟨hmem, hnone⟩ :=
        mem_hosts.mp (Hosting.mem_creations.mp (hsettles.creates.mem_iff.mp hd'))
      obtain rfl := hsame d' hmem hport
      exact absurd (hhost.symm.trans hnone) (by simp)
  · intro hnot
    cases hhost : host? key rules d with
    | none =>
        exact Or.inr ⟨d, hsettles.creates.mem_iff.mpr
          (Hosting.mem_creations.mpr (mem_hosts.mpr ⟨hd, hhost⟩)), rfl⟩
    | some host =>
        have hne : mismatches d host ≠ [] := fun hnil => hnot ⟨host, hhost, hnil⟩
        exact Or.inl ⟨(host, d), hsettles.overwrites.mem_iff.mpr
          (Hosting.mem_rewrites.mpr ⟨mem_hosts.mpr ⟨hd, hhost⟩, hne⟩), rfl⟩

/-- Beside a wanted rule that is there already, what is deleted on its port is any
other owned rule there. -/
theorem exists_delete_planFor {host : RouterRule} (hwanted : Wanted key desired)
    (hports : (Desired.externalPorts desired).Nodup) (hnd : (ids rules).Nodup)
    (hd : d ∈ desired) (hhost : host? key rules d = some host) :
    (∃ op ∈ planFor key desired rules (detect key desired rules),
        op.kind = .delete ∧ op.slot.external = d.slot.external) ↔
      ∃ r ∈ ownedRules key rules, r.id ≠ host.id ∧
        r.slot.external = d.slot.external := by
  have hsettles := settles_planFor rules hwanted
  constructor
  · rintro ⟨op, hop, hk, hport⟩
    obtain ⟨r, hex, hslot, -⟩ := delete_planFor hwanted hop hk
    obtain ⟨howned, hnot⟩ :=
      (hsettles.mem_deletions_iff hnd).mp (mem_deletions.mpr ⟨op, hop, hk, hex⟩)
    refine ⟨r, howned, fun hid => hnot ?_, hslot ▸ hport⟩
    -- under the host's identifier it would be the host, which is not deleted
    obtain rfl := eq_of_id_eq hnd (List.mem_filter.mp howned).1 (host_fits hhost).1 hid
    rw [rules_hosts]
    exact List.mem_filterMap.mpr ⟨d, hd, hhost⟩
  · rintro ⟨r, howned, hid, hport⟩
    have hnot : r ∉ Hosting.rules (hosts key rules desired) := by
      rw [rules_hosts]
      intro hmem
      obtain ⟨d', hd', hhost'⟩ := List.mem_filterMap.mp hmem
      have hport' : d'.slot.external = d.slot.external := by
        rw [← (host_fits hhost').2, hport]
      obtain rfl : d' = d := List.inj_on_of_nodup_map hports hd' hd hport'
      obtain rfl := Option.some.inj (hhost.symm.trans hhost')
      exact hid rfl
    obtain ⟨op, hop, hk, hex⟩ :=
      mem_deletions.mp ((hsettles.mem_deletions_iff hnd).mpr ⟨howned, hnot⟩)
    obtain ⟨r', hex', hslot, -⟩ := delete_planFor hwanted hop hk
    obtain rfl := Option.some.inj (hex.symm.trans hex')
    exact ⟨op, hop, hk, hslot ▸ hport⟩

/-- **What a plan leaves of the reservations of wanted ports.** -/
theorem holder?_after_planFor (hwanted : Wanted key desired)
    (hports : (Desired.externalPorts desired).Nodup) (hnd : (ids rules).Nodup)
    (hd : d ∈ desired) (hheld : held.holder? d.slot.external = some key) :
    let plan := planFor key desired rules (detect key desired rules)
    (plan.foldl (giveBack (targetedPorts plan)) held).holder? d.slot.external =
      if Forfeits key rules d then none else some key := by
  intro plan
  have hkey : ∀ op ∈ plan, op.kind = .delete → op.rule.owner.key = key := by
    intro op hop hk
    obtain ⟨-, -, -, hkey⟩ := delete_planFor hwanted hop hk
    exact hkey
  rw [holder?_foldl_giveBack hkey, hheld]
  have hiff : ((d.slot.external ∉ targetedPorts plan ∧
      ∃ op ∈ plan, op.kind = .delete ∧ op.slot.external = d.slot.external) ∧
        some key = some key) ↔ Forfeits key rules d := by
    rw [mem_targetedPorts_planFor hwanted hports hd, not_not]
    constructor
    · rintro ⟨⟨⟨host, hhost, hnil⟩, hdelete⟩, -⟩
      exact ⟨host, hhost, hnil,
        (exists_delete_planFor hwanted hports hnd hd hhost).mp hdelete⟩
    · rintro ⟨host, hhost, hnil, hother⟩
      exact ⟨⟨⟨host, hhost, hnil⟩,
        (exists_delete_planFor hwanted hports hnd hd hhost).mpr hother⟩, rfl⟩
  by_cases hforfeits : Forfeits key rules d
  · rw [if_pos hforfeits, if_pos (hiff.mpr hforfeits)]
  · rw [if_neg hforfeits, if_neg fun h => hforfeits (hiff.mp h)]

end Plan

end PortForwarding
