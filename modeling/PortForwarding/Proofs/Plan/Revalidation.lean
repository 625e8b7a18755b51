import PortForwarding.Proofs.Plan.Adjustment

/-!
# A plan between two listings

The rules to be taken over are looked for in one listing of the router, and the
plan is made against a second one. Anything may have happened in between.
`Takeover.revalidate` drops a takeover unless the second listing has a rule with
the identifier and on the slot of its target. It does not look at the rest of the
rule, nor for a rule that the Service owns there by now.

- `Takeover.surviving?_eq_some`: what can be relied on in a takeover that is left.
- `grounded_planFor`: where the targets that are left have not changed, the plan
  addresses rules of the second listing, and none twice.
- `count_applyAll`: such a plan leaves one owned rule on each wanted slot, and one
  more where the Service owned one on a slot that it takes over.
- `planFor_exact_iff`: so the plan is exact where neither has happened, and
  nowhere else.
-/

namespace PortForwarding

open Listing

/-- Whether a rule with these settings is on the slot and tells that the Service
owns it. -/
def RuleSpec.isOwnedOn (key : ServiceKey) (slot : Slot) (s : RuleSpec) : Bool :=
  s.slot == slot && s.isOwnedBy key

section

variable {key : ServiceKey} {first rules : List RouterRule}
  {desired : List DesiredRule} {d : DesiredRule} {op : Operation} {slot : Slot}

/-! ## Counting on one slot -/

theorem countP_specs (rules : List RouterRule) :
    (specs rules).countP (RuleSpec.isOwnedOn key slot) =
      (ownedRules key rules).countP fun r => r.slot == slot := by
  unfold specs ownedRules
  rw [List.countP_map, List.countP_filter]
  rfl

theorem count_slots (rules : List RouterRule) :
    (rules.map RouterRule.slot).count slot = rules.countP fun r =>
      r.slot == slot := by
  unfold List.count
  rw [List.countP_map]
  rfl

/-- Where no two rules are wanted on one slot, what counts there comes of the one
that is. -/
theorem countP_flatMap_of_slot {α : Type} {g : DesiredRule → List α} {p : α → Bool}
    (hnd : (desired.map DesiredRule.slot).Nodup) (hd : d ∈ desired)
    (hslot : ∀ w ∈ desired, ∀ a ∈ g w, p a = true → w.slot = d.slot) :
    (desired.flatMap g).countP p = (g d).countP p := by
  induction desired with
  | nil => exact absurd hd List.not_mem_nil
  | cons w desired ih =>
      rw [List.map_cons, List.nodup_cons] at hnd
      have hrest := fun v hv => hslot v (List.mem_cons_of_mem w hv)
      rw [List.flatMap_cons, List.countP_append]
      rcases List.mem_cons.mp hd with rfl | hd
      · have hnone : (desired.flatMap g).countP p = 0 := by
          refine List.countP_eq_zero.mpr fun a ha hp => ?_
          obtain ⟨v, hv, hav⟩ := List.mem_flatMap.mp ha
          exact hnd.1 (hrest v hv a hav hp ▸ List.mem_map_of_mem hv)
        rw [hnone, Nat.add_zero]
      · have hnone : (g w).countP p = 0 := by
          refine List.countP_eq_zero.mpr fun a ha hp => hnd.1 ?_
          rw [hslot w List.mem_cons_self a ha hp]
          exact List.mem_map_of_mem hd
        rw [hnone, Nat.zero_add, ih hnd.2 hd hrest]

open Takeover in
theorem countP_owned (rules : List RouterRule) (hasked : Asked key desired)
    (hd : d ∈ desired) :
    ((ownedRules key rules).countP fun r => r.slot == d.slot) =
      (if ((ownedRules key rules).find? fun r =>
        r.slot == d.slot).isSome then 1 else 0) +
        (surplus key desired rules).countP fun r => r.slot == d.slot := by
  rw [(owned_accounted hasked).countP_eq, List.countP_append, List.countP_filter,
    rules_hosts, List.filterMap_eq_flatMap_toList,
    countP_flatMap_of_slot hasked.slots_nodup hd]
  · rcases situation key rules d with ⟨r, -, hslot, hkey, hfind, hhost, -, -⟩ |
      ⟨r, -, -, hforeign, hfind, hhost, -, -⟩ | ⟨hfind, hhost, -, -⟩
    · simp [hfind, hhost, hslot, hkey]
    · simp [hfind, hhost, hforeign]
    · simp [hfind, hhost]
  · intro w hw r hr hp
    have hfits := host_fits (Option.mem_toList.mp hr)
    rw [Bool.and_eq_true, beq_iff_eq] at hp
    exact hfits.2.symm.trans hp.1

/-! ## Takeovers that are left -/

namespace Takeover

/-- The takeover of the slot of a wanted rule that is found in one listing and
left after a second one. -/
def surviving? (key : ServiceKey) (first rules : List RouterRule) (d : DesiredRule) :
    Option Operation :=
  (on? key first d).filter (stillThere rules)

theorem revalidate_detect_eq :
    revalidate (detect key desired first) rules =
      desired.filterMap (surviving? key first rules) :=
  List.filter_filterMap

/-- **A takeover that is left** was to overwrite a rule of another on the wanted
slot, and the second listing has a rule there with its identifier. -/
theorem surviving?_eq_some (h : surviving? key first rules d = some op) :
    ∃ e, op = .update d e .ownershipTakeover (mismatches d e) ∧
      e.isOwnedBy key = false ∧
      e.slot = d.slot ∧ ∃ r ∈ rules, r.id = e.id ∧ r.slot = e.slot := by
  obtain ⟨hon, hstill⟩ := Option.filter_eq_some_iff.mp h
  rcases situation key first d with ⟨-, -, -, -, -, -, hnone, -⟩ |
    ⟨e, -, hslot, hforeign, -, -, hsome, -⟩ | ⟨-, -, hnone, -⟩
  · exact absurd (hnone.symm.trans hon) (by simp)
  · obtain rfl := Option.some.inj (hsome.symm.trans hon)
    obtain ⟨r, hr, hsame⟩ := List.any_eq_true.mp hstill
    rw [Bool.and_eq_true, beq_iff_eq, beq_iff_eq] at hsame
    exact ⟨e, rfl, hforeign, hslot, r, hr, hsame⟩
  · exact absurd (hnone.symm.trans hon) (by simp)

theorem mem_revalidate_detect :
    op ∈ revalidate (detect key desired first) rules ↔
      ∃ d ∈ desired, surviving? key first rules d = some op := by
  rw [revalidate_detect_eq, List.mem_filterMap]

end Takeover

/-! ## The plan made of them -/

open Takeover Adjustment Operation

/-- A wanted rule overwrites the owned rule on its slot or is created. -/
theorem step?_eq_some {claimed : List Slot}
    (h : step? (ownedRules key rules) claimed d = some op) :
    (∃ r ∈ ownedRules key rules, r.slot = d.slot ∧
      op = .update d r .configurationMismatchSafe (mismatches d r)) ∨
    op = .create d .portNotYetExists := by
  unfold step? at h
  split at h
  · next r hfind =>
      obtain ⟨-, hop⟩ := Option.ite_none_left_eq_some.mp h
      refine Or.inl ⟨r, List.mem_of_find?_eq_some hfind, ?_, (Option.some.inj hop).symm⟩
      simpa using List.find?_some hfind
  · obtain ⟨-, hop⟩ := Option.ite_none_left_eq_some.mp h
    exact Or.inr (Option.some.inj hop).symm

/-- Which slots are taken over is no matter for the rules that the other
steps address. -/
theorem step?_bind_target? (owned : List RouterRule) (claimed claimed' : List Slot)
    (d : DesiredRule) :
    (step? owned claimed d).bind target? = (step? owned claimed' d).bind target? := by
  unfold step?
  cases owned.find? fun r => r.slot == d.slot with
  | some r => rfl
  | none => cases claimed.contains d.slot <;> cases claimed'.contains d.slot <;> rfl

/-- An operation of the plan is a takeover that is left, addresses an owned rule
of the second listing or creates a rule. -/
theorem cases_of_mem_planFor_takeovers {takeovers : List Operation}
    (hasked : Asked key desired)
    (hop : op ∈ planFor key desired rules takeovers) :
    op ∈ takeovers ∨ (∃ r ∈ ownedRules key rules, op.existing = some r) ∨
      op.kind = .create ∧ op.existing = none := by
  have hparts :=
    (planFor_perm_takeovers key rules takeovers hasked.slots_nodup).mem_iff.mp hop
  rw [List.mem_append, List.mem_append] at hparts
  rcases hparts with hop | hop | hop
  · exact Or.inl hop
  · obtain ⟨r, hr, hdelete⟩ := List.mem_filterMap.mp hop
    obtain ⟨d, -, rfl⟩ := Option.map_eq_some_iff.mp hdelete
    exact Or.inr (Or.inl ⟨r, mem_owned_of_surplus hr, rfl⟩)
  · obtain ⟨d, -, hstep⟩ := List.mem_filterMap.mp hop
    rcases step?_eq_some hstep with ⟨r, hr, -, rfl⟩ | rfl
    · exact Or.inr (Or.inl ⟨r, hr, rfl⟩)
    · exact Or.inr (Or.inr ⟨rfl, rfl⟩)

def ownTargets (key : ServiceKey) (desired : List DesiredRule)
    (rules : List RouterRule) : List RouterRule :=
  Plan.targets ((surplus key desired rules).filterMap
    (deleteOwned? · .portNoLongerDesired)) ++
    Plan.targets (desired.filterMap (step? (ownedRules key rules) []))

theorem targets_planFor_perm (rules : List RouterRule) (takeovers : List Operation)
    (hasked : Asked key desired) :
    (Plan.targets (planFor key desired rules takeovers)).Perm
      (Plan.targets takeovers ++ ownTargets key desired rules) := by
  have hparts :=
    (planFor_perm_takeovers key rules takeovers hasked.slots_nodup).filterMap target?
  rw [List.filterMap_append, List.filterMap_append,
    List.filterMap_filterMap (g := target?),
    List.filterMap_filterMap (g := target?),
    List.filterMap_congr fun d _ => step?_bind_target? _ _ [] d] at hparts
  unfold ownTargets Plan.targets
  rw [List.filterMap_filterMap (g := target?), List.filterMap_filterMap (g := target?)]
  exact hparts

theorem ownTargets_nodup (hasked : Asked key desired) (hnd : (ids rules).Nodup) :
    (ownTargets key desired rules).Nodup := by
  have hgrounded := (hasked.settles_planFor rules).grounded hnd
  have htargets :
      (Plan.targets (planFor key desired rules
      (detect key desired rules))).Nodup :=
    hgrounded.apart.of_map _
  rw [(targets_planFor_perm rules _ hasked).nodup_iff] at htargets
  exact (List.nodup_append.mp htargets).2.1

theorem mem_owned_of_ownTargets {r : RouterRule}
    (h : r ∈ ownTargets key desired rules) : r ∈ ownedRules key rules := by
  rcases List.mem_append.mp h with h | h
  · obtain ⟨op, hop, htarget⟩ := List.mem_filterMap.mp h
    obtain ⟨s, hs, hdelete⟩ := List.mem_filterMap.mp hop
    obtain ⟨d, -, rfl⟩ := Option.map_eq_some_iff.mp hdelete
    obtain rfl : s = r := Option.some.inj htarget
    exact mem_owned_of_surplus hs
  · obtain ⟨op, hop, htarget⟩ := List.mem_filterMap.mp h
    obtain ⟨d, -, hstep⟩ := List.mem_filterMap.mp hop
    rcases step?_eq_some hstep with ⟨s, hs, -, rfl⟩ | rfl
    · obtain rfl : s = r := Option.some.inj htarget
      exact hs
    · exact absurd htarget (by simp [target?, create])

theorem takeover_targets_nodup (hasked : Asked key desired) :
    (Plan.targets (revalidate (detect key desired first) rules)).Nodup := by
  rw [revalidate_detect_eq]
  unfold Plan.targets
  rw [List.filterMap_filterMap]
  -- as hosts, each of the rule that is wanted in its place
  have hslots :
      ((desired.map fun d => (d, (surviving? key first rules d).bind target?)).map
        fun host => host.1.slot).Nodup := by
    rw [List.map_map]
    exact hasked.slots_nodup
  have hrules := Hosting.rules_nodup hslots fun d r hr => by
    obtain ⟨w, -, heq⟩ := List.mem_map.mp hr
    obtain ⟨rfl, hbind⟩ := Prod.mk.inj heq
    obtain ⟨op, hop, htarget⟩ := Option.bind_eq_some_iff.mp hbind
    obtain ⟨e, rfl, -, hslot, -⟩ := surviving?_eq_some hop
    obtain rfl : e = r := Option.some.inj htarget
    exact hslot
  unfold Hosting.rules at hrules
  rw [List.filterMap_map] at hrules
  exact hrules

/-- **A plan whose takeovers are of rules as they are now is grounded**: it
addresses rules of the second listing, and none of them twice. -/
theorem grounded_planFor (hasked : Asked key desired) (hnd : (ids rules).Nodup)
    (hkept : ∀ op ∈ revalidate (detect key desired first) rules,
      ∀ e, op.existing = some e → e ∈ rules) :
    Plan.Grounded rules
      (planFor key desired rules (revalidate (detect key desired first) rules)) := by
  have htakeover : ∀ r ∈ Plan.targets (revalidate (detect key desired first) rules),
      r ∈ rules ∧ r.isOwnedBy key = false := by
    intro r hr
    obtain ⟨op, hop, htarget⟩ := List.mem_filterMap.mp hr
    obtain ⟨d, -, hsurviving⟩ := mem_revalidate_detect.mp hop
    obtain ⟨e, rfl, hforeign, -, -⟩ := surviving?_eq_some hsurviving
    obtain rfl : e = r := Option.some.inj htarget
    exact ⟨hkept _ hop e rfl, hforeign⟩
  have hown : ∀ r ∈ ownTargets key desired rules, r ∈ rules ∧ r.isOwnedBy key = true :=
    fun r hr => List.mem_filter.mp (mem_owned_of_ownTargets hr)
  have hperm := targets_planFor_perm rules (revalidate
    (detect key desired first) rules) hasked
  constructor
  · intro op hop hk
    rcases cases_of_mem_planFor_takeovers hasked hop with
      hop | ⟨r, hr, hex⟩ | ⟨hcreate, -⟩
    · obtain ⟨d, -, hsurviving⟩ := mem_revalidate_detect.mp hop
      obtain ⟨e, rfl, -⟩ := surviving?_eq_some hsurviving
      exact ⟨e, hkept _ hop e rfl, rfl⟩
    · exact ⟨r, (List.mem_filter.mp hr).1, hex⟩
    · exact absurd hcreate hk
  · unfold ids
    rw [(hperm.map RouterRule.id).nodup_iff]
    have hmem : ∀ r ∈ Plan.targets (revalidate (detect key desired first) rules) ++
        ownTargets key desired rules, r ∈ rules := by
      intro r hr
      exact (List.mem_append.mp hr).elim (fun h => (htakeover r h).1) fun h =>
        (hown r h).1
    refine List.Nodup.map_on (fun r hr s hs => eq_of_id_eq hnd (hmem r hr) (hmem s hs)) ?_
    -- what is taken over is of others, and what else is addressed is the
    -- Service's own
    refine List.nodup_append.mpr
      ⟨takeover_targets_nodup hasked, ownTargets_nodup hasked hnd,
        fun r hr s hs heq => ?_⟩
    have hforeign := (htakeover r hr).2
    rw [heq, (hown s hs).2] at hforeign
    exact Bool.noConfusion hforeign

/-! ## What a wanted slot holds then -/

theorem contains_revalidate_detect (hasked : Asked key desired) (hd : d ∈ desired) :
    ((revalidate (detect key desired first) rules).map Operation.slot).contains
      d.slot = (surviving? key first rules d).isSome := by
  rw [Bool.eq_iff_iff, List.contains_iff_mem, List.mem_map, Option.isSome_iff_exists]
  constructor
  · rintro ⟨op, hop, hslot⟩
    obtain ⟨w, hw, hsurviving⟩ := mem_revalidate_detect.mp hop
    obtain ⟨e, rfl, -⟩ := surviving?_eq_some hsurviving
    obtain rfl : w = d := List.inj_on_of_nodup_map hasked.slots_nodup hw hd hslot
    exact ⟨_, hsurviving⟩
  · rintro ⟨op, hsurviving⟩
    obtain ⟨e, rfl, -⟩ := surviving?_eq_some hsurviving
    exact ⟨_, mem_revalidate_detect.mpr ⟨d, hd, hsurviving⟩, rfl⟩

/-- What operations for wanted rules take from a wanted slot or bring to it is the
part of the one for the rule that is wanted there. -/
theorem countP_part {f : DesiredRule → Option Operation}
    {part : Operation → List RuleSpec} (hasked : Asked key desired)
    (hd : d ∈ desired)
    (hslot : ∀ w ∈ desired, ∀ op, f w = some op →
      ∀ s ∈ part op, s.slot = w.slot) :
    ((desired.filterMap f).flatMap part).countP (RuleSpec.isOwnedOn key d.slot) =
      ((f d).toList.flatMap part).countP (RuleSpec.isOwnedOn key d.slot) := by
  rw [List.filterMap_eq_flatMap_toList, List.flatMap_assoc]
  refine countP_flatMap_of_slot hasked.slots_nodup hd fun w hw s hs hp => ?_
  obtain ⟨op, hop, hpart⟩ := List.mem_flatMap.mp hs
  unfold RuleSpec.isOwnedOn at hp
  rw [Bool.and_eq_true, beq_iff_eq] at hp
  exact (hslot w hw op (Option.mem_toList.mp hop) s hpart).symm.trans hp.1

/-- A takeover that is left takes nothing of the Service's from a wanted slot, and
brings one rule to its own. -/
theorem countP_takeovers (first rules : List RouterRule) (hasked : Asked key desired)
    (htold : ∀ d ∈ desired, d.spec.isOwnedBy key = true) (hd : d ∈ desired) :
    ((revalidate (detect key desired first) rules).flatMap taken).countP
        (RuleSpec.isOwnedOn key d.slot) = 0 ∧
    ((revalidate (detect key desired first) rules).flatMap given).countP
        (RuleSpec.isOwnedOn key d.slot) =
      if (surviving? key first rules d).isSome then 1 else 0 := by
  rw [revalidate_detect_eq]
  constructor
  · refine List.countP_eq_zero.mpr fun s hs hp => ?_
    obtain ⟨op, hop, htaken⟩ := List.mem_flatMap.mp hs
    obtain ⟨w, -, hsurviving⟩ := List.mem_filterMap.mp hop
    obtain ⟨e, rfl, hforeign, -⟩ := surviving?_eq_some hsurviving
    obtain rfl : s = e.spec := List.mem_singleton.mp htaken
    unfold RuleSpec.isOwnedOn at hp
    rw [Bool.and_eq_true] at hp
    exact absurd (hp.2.symm.trans hforeign) (by simp)
  · rw [countP_part hasked hd]
    · cases hsurviving : surviving? key first rules d with
      | none => rfl
      | some op =>
          obtain ⟨e, rfl, -⟩ := surviving?_eq_some hsurviving
          simp [given, update, RuleSpec.isOwnedOn, htold d hd, DesiredRule.slot]
    · intro w hw op hop s hs
      obtain ⟨e, rfl, -⟩ := surviving?_eq_some hop
      obtain rfl : s = w.spec := List.mem_singleton.mp hs
      rfl

theorem countP_deletions (key : ServiceKey) (desired : List DesiredRule)
    (rules : List RouterRule) (slot : Slot) :
    (((surplus key desired rules).filterMap
        (deleteOwned? · .portNoLongerDesired)).flatMap taken).countP
          (RuleSpec.isOwnedOn key slot) =
      (surplus key desired rules).countP (fun r => r.slot == slot) ∧
    ((surplus key desired rules).filterMap
      (deleteOwned? · .portNoLongerDesired)).flatMap given = [] := by
  have howned : ∀ r ∈ surplus key desired rules, r.isOwnedBy key = true :=
    fun r hr => (List.mem_filter.mp (mem_owned_of_surplus hr)).2
  generalize surplus key desired rules = going at howned
  induction going with
  | nil => exact ⟨rfl, rfl⟩
  | cons r going ih =>
      obtain ⟨htaken, hgiven⟩ := ih fun s hs => howned s (List.mem_cons_of_mem r hs)
      have hkey := howned r List.mem_cons_self
      obtain ⟨o, ho, -⟩ := RouterRule.isOwnedBy_iff.mp hkey
      have hdelete : deleteOwned? r .portNoLongerDesired =
          some (delete ⟨o, r.spec⟩ r .portNoLongerDesired) := by
        simp [deleteOwned?, DesiredRule.ofRouterRule?, ho]
      rw [List.filterMap_cons_some (f := (deleteOwned? · .portNoLongerDesired)) hdelete,
        List.flatMap_cons, List.flatMap_cons, List.countP_append,
        List.countP_cons, htaken, hgiven]
      constructor
      · have htold : r.spec.isOwnedBy key = true := hkey
        simp [taken, target?, delete, specs, RuleSpec.isOwnedOn, htold, RouterRule.slot,
          Nat.add_comm]
      · rfl

/-- A step for a wanted rule replaces the owned rule on its slot or, where there
is none and the slot is not taken over, brings one. -/
theorem countP_steps (rules : List RouterRule) (claimed : List Slot)
    (hasked : Asked key desired) (htold : ∀ d ∈ desired, d.spec.isOwnedBy key = true)
    (hd : d ∈ desired) :
    ((desired.filterMap (step? (ownedRules key rules) claimed)).flatMap given).countP
        (RuleSpec.isOwnedOn key d.slot) =
      ((desired.filterMap (step? (ownedRules key rules) claimed)).flatMap
        taken).countP (RuleSpec.isOwnedOn key d.slot) +
        if ((ownedRules key rules).find? fun r => r.slot == d.slot).isSome then 0
        else if claimed.contains d.slot then 0 else 1 := by
  have hslot : ∀ w ∈ desired, ∀ op, step? (ownedRules key rules) claimed w = some op →
      ∀ s ∈ op.taken ++ op.given, s.slot = w.slot := by
    intro w hw op hop s hs
    rcases step?_eq_some hop with ⟨r, -, hslot, rfl⟩ | rfl
    · rcases List.mem_append.mp hs with hs | hs
      · obtain rfl : s = r.spec := List.mem_singleton.mp hs
        exact hslot
      · obtain rfl : s = w.spec := List.mem_singleton.mp hs
        rfl
    · obtain rfl : s = w.spec := List.mem_singleton.mp hs
      rfl
  have hwanted : d.spec.isOwnedOn key d.slot = true := by
    simp [RuleSpec.isOwnedOn, htold d hd, DesiredRule.slot]
  rw [countP_part hasked hd fun w hw op hop s hs =>
      hslot w hw op hop s (List.mem_append_right _ hs),
    countP_part hasked hd fun w hw op hop s hs =>
      hslot w hw op hop s (List.mem_append_left _ hs)]
  unfold step?
  cases hfind : (ownedRules key rules).find? fun r => r.slot == d.slot with
  | some r =>
      have hslot : r.slot = d.slot := by simpa using List.find?_some hfind
      have hkey : r.spec.isOwnedBy key = true :=
        (List.mem_filter.mp (List.mem_of_find?_eq_some hfind)).2
      have hreplaced : r.spec.isOwnedOn key d.slot = true := by
        rw [← hslot]
        simp [RuleSpec.isOwnedOn, hkey, RouterRule.slot]
      by_cases hnil : mismatches d r = []
      · simp [hnil]
      · simp [hnil, taken, given, update, target?, specs, hwanted, hreplaced]
  | none =>
      by_cases hclaimed : d.slot ∈ claimed
      · simp [hclaimed]
      · simp [hclaimed, taken, given, create, target?, specs, hwanted]

/-- **What a wanted slot holds after the plan**: one owned rule, and one more
where the Service owned a rule on a slot that was taken over. -/
theorem count_applyAll {new : Nat → String} (hasked : Asked key desired)
    (htold : ∀ d ∈ desired, d.spec.isOwnedBy key = true) (hnd : (ids rules).Nodup)
    (hfresh : Plan.Fresh new 0 rules)
    (hplan : Plan.Grounded rules
      (planFor key desired rules (revalidate (detect key desired first) rules)))
    (hd : d ∈ desired) :
    ((ownedRules key (applyAll new 0 rules
        (planFor key desired rules
          (revalidate (detect key desired first) rules)))).map
      RouterRule.slot).count d.slot =
    1 + if (surviving? key first rules d).isSome &&
      ((ownedRules key rules).find? fun r =>
        r.slot == d.slot).isSome then 1 else 0 := by
  have hbalance := (Plan.specs_applyAll_perm hnd hplan hfresh).countP_eq
    (RuleSpec.isOwnedOn key d.slot)
  have hparts :=
    planFor_perm_takeovers key rules (revalidate (detect key desired first) rules)
    hasked.slots_nodup
  have htaken := (hparts.flatMap_right taken).countP_eq (RuleSpec.isOwnedOn key d.slot)
  have hgiven := (hparts.flatMap_right given).countP_eq (RuleSpec.isOwnedOn key d.slot)
  obtain ⟨hnothing, htakeovers⟩ := countP_takeovers first rules hasked htold hd
  obtain ⟨hsurplus, hempty⟩ := countP_deletions key desired rules d.slot
  have hsteps := countP_steps rules
    ((revalidate (detect key desired first) rules).map Operation.slot) hasked htold hd
  have howned := countP_owned rules hasked hd
  rw [contains_revalidate_detect hasked hd] at hsteps
  simp only [List.countP_append, List.flatMap_append, countP_specs, hempty,
    List.countP_nil]
    at hbalance htaken hgiven
  rw [count_slots]
  generalize (surviving? key first rules d).isSome = left at hsteps htakeovers ⊢
  generalize ((ownedRules key rules).find? fun r => r.slot == d.slot).isSome = held
    at hsteps howned ⊢
  cases left <;> cases held <;>
    simp only [Bool.and_self, Bool.and_true, Bool.and_false, Bool.false_eq_true, if_true,
      if_false] at hsteps htakeovers howned ⊢ <;> omega

/-! ## When the second listing is enough -/

/-- What the plan addresses was listed a second time with the same identifier and
on the same slot, if not with the same settings. -/
theorem exists_listed (hasked : Asked key desired)
    (hop : op ∈ planFor key desired rules (revalidate
      (detect key desired first) rules)) {e : RouterRule}
    (hex : op.existing = some e) :
    ∃ r ∈ rules, r.id = e.id ∧ r.slot = e.slot := by
  rcases cases_of_mem_planFor_takeovers hasked hop with hop | ⟨r, hr, hr'⟩ | ⟨-, hnone⟩
  · obtain ⟨d, -, hsurviving⟩ := mem_revalidate_detect.mp hop
    obtain ⟨e', rfl, -, -, hstill⟩ := surviving?_eq_some hsurviving
    obtain rfl : e' = e := Option.some.inj hex
    exact hstill
  · obtain rfl := Option.some.inj (hr'.symm.trans hex)
    exact ⟨r, (List.mem_filter.mp hr).1, rfl, rfl⟩
  · exact absurd (hnone.symm.trans hex) (by simp)

/-- **A plan between two listings.** What it addresses is still there, with its
identifier and on its slot. It addresses rules just as the second listing shows
them, none twice, and leaves one owned rule on each wanted slot, exactly where
nothing has changed about the targets of the takeovers that are left and the
Service owns no rule on their slots by now. -/
theorem planFor_exact_iff {new : Nat → String} (first : List RouterRule)
    (hasked : Asked key desired) (htold : ∀ d ∈ desired, d.spec.isOwnedBy key = true)
    (hnd : (ids rules).Nodup) (hfresh : Plan.Fresh new 0 rules) :
    let left := revalidate (detect key desired first) rules
    let plan := planFor key desired rules left
    let after := applyAll new 0 rules plan
    (∀ op ∈ plan, ∀ e, op.existing = some e → ∃ r ∈ rules, r.id = e.id ∧
      r.slot = e.slot) ∧
    (((∀ op ∈ plan, ∀ e, op.existing = some e → e ∈ rules) ∧
        (ids (Plan.targets plan)).Nodup ∧
        ∀ d ∈ desired, ((ownedRules key after).map RouterRule.slot).count d.slot = 1) ↔
      ∀ op ∈ left, ∀ e, op.existing = some e →
        e ∈ rules ∧ ∀ r ∈ ownedRules key rules, r.slot ≠ e.slot) := by
  intro left plan after
  have hleft : ∀ op ∈ left, op ∈ plan := fun op hop =>
    (planFor_perm_takeovers key rules left hasked.slots_nodup).mem_iff.mpr
      (List.mem_append_left _ hop)
  refine ⟨fun op hop e hex => exists_listed hasked hop hex, ?_, ?_⟩
  · rintro ⟨hexact, -, hone⟩ op hop e hex
    refine ⟨hexact op (hleft op hop) e hex, fun r hr hslot => ?_⟩
    -- an owned rule on the slot would be one too many
    have hgrounded : Plan.Grounded rules plan :=
      grounded_planFor hasked hnd fun op hop => hexact op (hleft op hop)
    obtain ⟨d, hd, hsurviving⟩ := mem_revalidate_detect.mp hop
    obtain ⟨e', rfl, -, hslot', -⟩ := surviving?_eq_some hsurviving
    obtain rfl : e' = e := Option.some.inj hex
    have hheld : ((ownedRules key rules).find? fun r => r.slot == d.slot).isSome =
        true := by
      rw [List.find?_isSome]
      exact ⟨r, hr, by simp [hslot, hslot']⟩
    have hcount := count_applyAll hasked htold hnd hfresh hgrounded hd
    rw [hsurviving, hheld, hone d hd] at hcount
    exact absurd hcount (by simp)
  · intro hunchanged
    have hgrounded : Plan.Grounded rules plan :=
      grounded_planFor hasked hnd fun op hop e hex => (hunchanged op hop e hex).1
    refine ⟨fun op hop e hex => ?_, hgrounded.apart, fun d hd => ?_⟩
    · rcases cases_of_mem_planFor_takeovers hasked hop with
        hop | ⟨r, hr, hr'⟩ | ⟨-, hnone⟩
      · exact (hunchanged op hop e hex).1
      · obtain rfl := Option.some.inj (hr'.symm.trans hex)
        exact (List.mem_filter.mp hr).1
      · exact absurd (hnone.symm.trans hex) (by simp)
    · rw [count_applyAll hasked htold hnd hfresh hgrounded hd]
      cases hsurviving : surviving? key first rules d with
      | none => rfl
      | some op =>
          obtain ⟨e, rfl, -, hslot, -⟩ := surviving?_eq_some hsurviving
          have hfree :=
            (hunchanged _ (mem_revalidate_detect.mpr ⟨d, hd, hsurviving⟩) e rfl).2
          have hnone : ((ownedRules key rules).find? fun r => r.slot == d.slot) =
              none := by
            rw [List.find?_eq_none]
            intro r hr
            simpa [← hslot] using hfree r hr
          rw [hnone]
          rfl

end

/-! ## Listings that differ -/

namespace Sample

def found : RouterRule :=
  ⟨"a", { (wish "http" 80 8080).spec with name := "by hand" }⟩

/-- The router some time before it had `rules`: this rule was there already, and
the other one has gone since, from a slot on which the Service has made rules of
its own. -/
def earlier : List RouterRule :=
  [found, ⟨"e", { (wish "https" 443 8443).spec with name := "vpn" }⟩]

def edited : List RouterRule :=
  [{ found with spec := { found.spec with destination := .v4 10 0 0 7 } }]

def adopted : List RouterRule :=
  [{ found with spec := { (wish "http" 80 8080).spec with destination := .v4 10 0 0 7 } }]

def joined : List RouterRule :=
  [found, ⟨"b", (wish "http" 80 8080).spec⟩]

end Sample

open Takeover Sample in
theorem planFor_exact_iff_earlier :
    let left := revalidate (detect key desired earlier) rules
    let plan := planFor key desired rules left
    let after := Operation.applyAll Sample.fresh 0 rules plan
    left = [.update (wish "http" 80 8080) found .ownershipTakeover [.ownership, .name]] ∧
    (∀ op ∈ plan, ∀ e, op.existing = some e → e ∈ rules) ∧
    (ids (Plan.targets plan)).Nodup ∧
    ∀ d ∈ desired, ((ownedRules key after).map RouterRule.slot).count d.slot = 1 := by
  intro left plan after
  have hleft :
      left = [.update (wish "http" 80 8080) found .ownershipTakeover
          [.ownership, .name]] := by
    decide +kernel
  obtain ⟨-, hexact⟩ := planFor_exact_iff earlier wanted.asked (by decide) (by decide)
    Sample.fresh_rules
  refine ⟨hleft, hexact.mpr fun op hop e hex => ?_⟩
  have hop : op ∈ left := hop
  rw [hleft, List.mem_singleton] at hop
  subst hop
  obtain rfl := Option.some.inj hex
  decide

open Takeover Sample in
/-- **The second listing does not close the race.** A plan may be to put a rule
back that is no more as it was, may address a rule twice, and may leave two owned
rules on a slot. -/
theorem planFor_stale :
    let desired := [wish "http" 80 8080]
    let plan := fun listed => planFor key desired listed
      (revalidate (detect key desired [found]) listed)
    Wanted key desired ∧
    (∀ listed ∈ [[found], edited, adopted, joined], (ids listed).Nodup) ∧
    (∃ op ∈ plan edited, op.existing = some found ∧ found ∉ edited) ∧
    ids (Plan.targets (plan adopted)) = ["a", "a"] ∧
    ((ownedRules key (Operation.applyAll Sample.fresh 0 joined (plan joined))).map
      RouterRule.slot).count (wish "http" 80 8080).slot = 2 := by
  intro desired plan
  have hwanted : Wanted key desired := ⟨by decide, by decide, by decide, by decide⟩
  have htwice : (ids (Plan.targets (plan adopted))).Perm (List.replicate 2 "a") := by
    refine ((targets_planFor_perm _ _ hwanted.asked).map RouterRule.id).trans ?_
    decide +kernel
  refine ⟨hwanted, by decide, ?_, List.perm_replicate.mp htwice, by decide +kernel⟩
  exact ⟨.update (wish "http" 80 8080) found .ownershipTakeover [.ownership, .name],
    by decide +kernel, rfl, by decide⟩

end PortForwarding
