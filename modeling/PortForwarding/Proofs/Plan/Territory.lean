import PortForwarding.Proofs.Plan.Adjustment
import PortForwarding.Proofs.Plan.Drift

/-!
# Plans that keep to a territory

A Service looks at a listing only for the rules that it owns and for those on the
slots that it wants. Where all of these are on the slots of a territory, the rules
on other slots make no difference to what is planned (`planFor_within`,
`Drift.compare_within`), and the plan makes no difference to them
(`within_outside_apply`).

What has become of the Service's rules is then known from the balance of the
territory alone (`Settles.converged_of_balance`).
-/

namespace PortForwarding

namespace Listing

variable {zone : Slot → Bool} {rules : List RouterRule} {r e : RouterRule}

/-- The rules of a listing on the slots of a territory. -/
def within (zone : Slot → Bool) (rules : List RouterRule) : List RouterRule :=
  rules.filter fun r => zone r.slot

def outside (zone : Slot → Bool) (slot : Slot) : Bool :=
  !zone slot

@[simp] theorem outside_outside : outside (outside zone) = zone := by
  funext slot
  simp [outside]

theorem mem_within : r ∈ within zone rules ↔ r ∈ rules ∧ zone r.slot = true :=
  List.mem_filter

theorem ids_within_nodup (hnd : (ids rules).Nodup) :
    (ids (within zone rules)).Nodup :=
  hnd.sublist (List.filter_sublist.map _)

theorem find?_within {p : RouterRule → Bool}
    (h : ∀ r, p r = true → zone r.slot = true) :
    (within zone rules).find? p = rules.find? p := by
  unfold within
  rw [List.find?_filter]
  congr 1
  funext r
  cases hp : p r with
  | false => simp
  | true => simp [h r hp]

theorem ownedRules_within {key : ServiceKey}
    (h : ∀ r ∈ rules, r.isOwnedBy key = true → zone r.slot = true) :
    ownedRules key (within zone rules) = ownedRules key rules := by
  unfold ownedRules within
  rw [List.filter_filter]
  refine List.filter_congr fun r hr => ?_
  cases hkey : r.isOwnedBy key with
  | false => simp
  | true => simp [h r hr hkey]

/-- To overwrite a rule within a territory is nothing to the other slots. -/
theorem within_overwrite {spec : RuleSpec} (hnd : (ids rules).Nodup)
    (he : e ∈ within zone rules) (hspec : zone spec.slot = true) :
    within zone (overwrite e.id spec rules) =
      overwrite e.id spec (within zone rules) ∧
    within (outside zone) (overwrite e.id spec rules) =
      within (outside zone) rules := by
  obtain ⟨hmem, hzone⟩ := mem_within.mp he
  have hself : ∀ r ∈ rules, r.id = e.id → zone r.slot = true := by
    intro r hr hid
    rw [eq_of_id_eq hnd hr hmem hid]
    exact hzone
  have hsame : ∀ r ∈ rules,
      zone (if r.id = e.id then { r with spec := spec } else r).slot = zone r.slot := by
    intro r hr
    by_cases hid : r.id = e.id
    · rw [if_pos hid, hself r hr hid]
      exact hspec
    · rw [if_neg hid]
  unfold within overwrite outside
  rw [List.filter_map, List.filter_map]
  refine ⟨congrArg _ (List.filter_congr hsame), ?_⟩
  have hrest : rules.filter ((fun r => !zone r.slot) ∘
      fun r => if r.id = e.id then { r with spec := spec } else r) =
      rules.filter fun r => !zone r.slot :=
    List.filter_congr fun r hr => congrArg not (hsame r hr)
  rw [hrest]
  refine (List.map_congr_left fun r hr => ?_).trans (List.map_id _)
  obtain ⟨hr, hout⟩ := List.mem_filter.mp hr
  have hne : r.id ≠ e.id := fun hid => by simp [hself r hr hid] at hout
  exact if_neg hne

theorem within_without (hnd : (ids rules).Nodup) (he : e ∈ within zone rules) :
    within zone (without e.id rules) = without e.id (within zone rules) ∧
    within (outside zone) (without e.id rules) = within (outside zone) rules := by
  obtain ⟨hmem, hzone⟩ := mem_within.mp he
  unfold within without outside
  rw [List.filter_filter, List.filter_filter, List.filter_filter]
  refine ⟨List.filter_congr fun r _ => Bool.and_comm _ _,
    List.filter_congr fun r hr => ?_⟩
  by_cases hid : r.id = e.id
  · have hr : r = e := eq_of_id_eq hnd hr hmem hid
    simp [hr, hzone]
  · simp [hid]

end Listing

open Listing Operation Plan

/-! ## Planning -/

section

variable {key : ServiceKey} {desired : List DesiredRule}
  {rules fresh free : List RouterRule} {zone : Slot → Bool} {d : DesiredRule}

namespace Drift

theorem matchRule_within (hd : zone d.slot = true) :
    matchRule key (within zone rules) free d = matchRule key rules free d := by
  have hfind : (within zone rules).find? (fun r => r.slot == d.slot && !r.isOwnedBy key) =
      rules.find? fun r => r.slot == d.slot && !r.isOwnedBy key := by
    refine find?_within fun r hr => ?_
    rw [Bool.and_eq_true, beq_iff_eq] at hr
    rw [hr.1]
    exact hd
  unfold matchRule
  rw [hfind]

theorem matchAll_within (hzone : ∀ d ∈ desired, zone d.slot = true) :
    matchAll key (within zone rules) free desired =
      matchAll key rules free desired := by
  induction desired generalizing free with
  | nil => rfl
  | cons d desired ih =>
      have hrest : ∀ {free}, matchAll key (within zone rules) free desired =
          matchAll key rules free desired := ih fun d' hd' =>
            hzone d' (List.mem_cons_of_mem _ hd')
      unfold matchAll
      simp only [matchRule_within (hzone d List.mem_cons_self), hrest]

/-- **Only the territory makes a difference to the drift.** -/
theorem compare_within (reference : ObjectReference)
    (hzone : ∀ d ∈ desired, zone d.slot = true)
    (howned : ∀ r ∈ rules, r.isOwnedBy key = true → zone r.slot = true) :
    compare key reference desired (within zone rules) =
      compare key reference desired rules := by
  unfold compare
  simp only [ownedRules_within howned, matchAll_within hzone]

end Drift

theorem Takeover.detect_within (hzone : ∀ d ∈ desired, zone d.slot = true)
    (howned : ∀ r ∈ rules, r.isOwnedBy key = true → zone r.slot = true) :
    Takeover.detect key desired (within zone rules) =
      Takeover.detect key desired rules := by
  refine List.filterMap_congr fun d hd => ?_
  have hfind : (within zone rules).find? (fun r => r.slot == d.slot && !r.isOwnedBy key) =
      rules.find? fun r => r.slot == d.slot && !r.isOwnedBy key := by
    refine find?_within fun r hr => ?_
    rw [Bool.and_eq_true, beq_iff_eq] at hr
    rw [hr.1]
    exact hzone d hd
  unfold on?
  rw [ownedRules_within howned, hfind]

/-- **Only the territory makes a difference to the plan after a change**, also
where a second listing is taken and it has changed outside. -/
theorem planFor_within (hzone : ∀ d ∈ desired, zone d.slot = true)
    (howned : ∀ r ∈ rules, r.isOwnedBy key = true → zone r.slot = true)
    (howned' : ∀ r ∈ fresh, r.isOwnedBy key = true → zone r.slot = true)
    (hsame : within zone fresh = within zone rules) :
    planFor key desired fresh (Takeover.revalidate
      (Takeover.detect key desired rules) fresh) =
      planFor key desired (within zone rules)
        (Takeover.detect key desired (within zone rules)) := by
  have hsub : within zone rules ⊆ fresh := by
    rw [← hsame]
    exact List.filter_sublist.subset
  rw [← Takeover.detect_within hzone howned, Takeover.revalidate_detect_of_subset hsub]
  unfold planFor
  rw [← ownedRules_within howned', hsame]

end

/-! ## Carrying out -/

section

variable {zone : Slot → Bool} {rules : List RouterRule} {op : Operation} {id : String}

theorem within_apply (hnd : (ids rules).Nodup)
    (hop : op.IsGrounded (within zone rules))
    (hzone : op.kind ≠ .delete → zone op.rule.slot = true) :
    within zone (op.apply id rules) = op.apply id (within zone rules) := by
  rcases hop.cases with hk | ⟨e, he, hex, hk | hk⟩
  · have hslot := hzone (by simp [hk])
    rw [apply_of_create hk, apply_of_create hk]
    unfold within
    rw [List.filter_append]
    exact congrArg _ (List.filter_cons_of_pos hslot)
  · rw [apply_of_update hk hex, apply_of_update hk hex]
    exact (within_overwrite hnd he (hzone (by simp [hk]))).1
  · rw [apply_of_delete hk hex, apply_of_delete hk hex]
    exact (within_without hnd he).1

theorem within_outside_apply (hnd : (ids rules).Nodup)
    (hop : op.IsGrounded (within zone rules))
    (hzone : op.kind ≠ .delete → zone op.rule.slot = true) :
    within (outside zone) (op.apply id rules) = within (outside zone) rules := by
  rcases hop.cases with hk | ⟨e, he, hex, hk | hk⟩
  · have hslot : outside zone op.rule.slot = false := by
      unfold outside
      rw [hzone (by simp [hk])]
      rfl
    rw [apply_of_create hk]
    unfold within
    rw [List.filter_append]
    refine (congrArg _ (List.filter_cons_of_neg ?_)).trans (List.append_nil _)
    exact Bool.eq_false_iff.mp hslot
  · rw [apply_of_update hk hex]
    exact (within_overwrite hnd he (hzone (by simp [hk]))).2
  · rw [apply_of_delete hk hex]
    exact (within_without hnd he).2

end

/-! ## What has come of a plan -/

section

variable {key : ServiceKey} {desired : List DesiredRule}
  {rules after : List RouterRule} {hosts : List Hosting} {plan : List Operation}
  {op : Operation}

theorem specs_ownedRules (key : ServiceKey) (rules : List RouterRule) :
    specs (ownedRules key rules) = (specs rules).filter fun s => s.isOwnedBy key := by
  unfold specs ownedRules
  rw [List.filter_map]
  rfl

/-- Whether a Service owns what it wants does not depend on identifiers. -/
theorem Converged.of_specs_perm (h : Converged key desired rules)
    (hperm : (specs (ownedRules key rules)).Perm (specs (ownedRules key after))) :
    Converged key desired after := by
  constructor
  · have hslots := hperm.map RuleSpec.slot
    unfold specs at hslots
    rw [List.map_map, List.map_map] at hslots
    exact hslots.symm.trans h.slots
  · intro r hr
    obtain ⟨r', hr', hspec⟩ :=
      List.mem_map.mp (hperm.mem_iff.mpr (List.mem_map_of_mem hr))
    obtain ⟨d, hd, hmeets⟩ := h.meets r' hr'
    have hslot : r.slot = r'.slot := congrArg RuleSpec.slot hspec.symm
    exact ⟨d, hd, hslot.trans hmeets.slot, hspec ▸ hmeets.name,
      hspec ▸ hmeets.destination, hspec ▸ hmeets.enabled, hspec ▸ hmeets.source⟩

theorem exists_longer (texts : List String) : ∃ n, ∀ s ∈ texts, s.length < n := by
  induction texts with
  | nil => exact ⟨0, fun s hs => absurd hs List.not_mem_nil⟩
  | cons text texts ih =>
      obtain ⟨n, hn⟩ := ih
      refine ⟨max n (text.length + 1), fun s hs => ?_⟩
      rcases List.mem_cons.mp hs with rfl | hs
      · omega
      · have := hn s hs
        omega

theorem exists_fresh (rules : List RouterRule) : ∃ fresh, Fresh fresh 0 rules := by
  obtain ⟨longer, hlonger⟩ := exists_longer (ids rules)
  refine ⟨fun n => String.ofList (List.replicate (longer + n) 'i'), fun m n h => ?_, ?_⟩
  · have hlength := congrArg String.length h
    simp only [String.length_ofList, List.length_replicate] at hlength
    omega
  · intro n _ hmem
    have hlength := hlonger _ hmem
    simp only [String.length_ofList, List.length_replicate] at hlength
    omega

/-- **Where a settling plan's balance is met, the Service owns what it wants.** -/
theorem Plan.Settles.converged_of_balance (hkey : key.Valid)
    (hwanted : Wanted key desired) (hnd : (ids rules).Nodup)
    (hhosts : hosts.map Prod.fst = desired) (h : Settles key rules hosts plan)
    (hbalance : (specs after ++ plan.flatMap taken).Perm (specs rules ++
      plan.flatMap given)) :
    Converged key desired after := by
  obtain ⟨fresh, hfresh⟩ := exists_fresh rules
  obtain ⟨hconverged, -, -⟩ := h.outcome hkey hwanted hnd hhosts hfresh
  have hperm : (specs (applyAll fresh 0 rules plan)).Perm (specs after) := by
    have hplan := specs_applyAll_perm hnd (h.grounded hnd) hfresh
    exact (List.perm_append_right_iff _).mp (hplan.trans hbalance.symm)
  refine hconverged.of_specs_perm ?_
  rw [specs_ownedRules, specs_ownedRules]
  exact hperm.filter _

theorem Plan.Settles.rule_mem (h : Settles key rules hosts plan) (hop : op ∈ plan)
    (hk : op.kind ≠ .delete) : op.rule ∈ hosts.map Prod.fst := by
  cases hkind : op.kind with
  | delete => exact absurd hkind hk
  | update =>
      obtain ⟨e, hex⟩ := Option.isSome_iff_exists.mp (h.targeted op hop (by simp [hkind]))
      have hw : (e, op.rule) ∈ rewrites plan :=
        List.mem_filterMap.mpr ⟨op, hop, rewrite?_eq_some.mpr ⟨hkind, hex, rfl⟩⟩
      exact List.mem_map_of_mem (Hosting.mem_rewrites.mp (h.overwrites.mem_iff.mp hw)).1
  | create =>
      have hd : op.rule ∈ creations plan :=
        List.mem_filterMap.mpr ⟨op, hop, creation?_eq_some.mpr ⟨hkind, rfl⟩⟩
      exact List.mem_map_of_mem (Hosting.mem_creations.mp (h.creates.mem_iff.mp hd))

/-- **Where nothing has come apart, the Service owns what it wants.** -/
theorem Drift.converged_of_calm (reference : ObjectReference) (hkey : key.Valid)
    (hwanted : Wanted key desired) (hnd : (ids rules).Nodup)
    (hcalm : (compare key reference desired rules).any = false) :
    Converged key desired rules := by
  have hsettles := settles_hosts reference hwanted hnd
  rw [correctionPlan_of_calm hcalm] at hsettles
  exact hsettles.converged_of_balance hkey hwanted hnd map_fst_hosts (List.Perm.refl _)

end

end PortForwarding
