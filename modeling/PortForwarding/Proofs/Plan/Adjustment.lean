import PortForwarding.Plan.Adjustment
import PortForwarding.Proofs.Plan.Settlement

/-!
# The plan after a change settles what the Service wants

The host of a wanted rule is the first owned rule on its slot, and where there is
none the first rule of another. What `Adjustment.compute` and `Takeover.detect` do
separately, slot by slot and in an order of their own, is together what these
hosts ask for (`settles_planFor`).
-/

namespace PortForwarding

open Listing

/-! ## One rule on a slot -/

namespace Adjustment

variable {owned rs : List RouterRule} {desired : List DesiredRule}
  {claimed seen : List Slot} {slot : Slot} {r : RouterRule} {d : DesiredRule}

theorem mem_firsts : r ∈ firsts seen rs ↔
    r.slot ∉ seen ∧ rs.find? (fun s => s.slot == r.slot) = some r := by
  induction rs generalizing seen with
  | nil => simp [firsts]
  | cons x rs ih =>
      unfold firsts
      rw [List.find?_cons]
      by_cases hx : x.slot ∈ seen
      · rw [if_pos (List.contains_iff_mem.mpr hx), ih]
        constructor
        · rintro ⟨hr, hfind⟩
          have hne : (x.slot == r.slot) = false := beq_false_of_ne fun h => hr (h ▸ hx)
          rw [hne]
          exact ⟨hr, hfind⟩
        · rintro ⟨hr, hfind⟩
          have hne : (x.slot == r.slot) = false := beq_false_of_ne fun h => hr (h ▸ hx)
          rw [hne] at hfind
          exact ⟨hr, hfind⟩
      · rw [if_neg fun h => hx (List.contains_iff_mem.mp h), List.mem_cons, ih,
          List.mem_cons]
        by_cases hslot : x.slot = r.slot
        · rw [hslot, beq_self_eq_true]
          constructor
          · rintro (rfl | ⟨hr, -⟩)
            · exact ⟨hx, rfl⟩
            · exact absurd (Or.inl rfl) hr
          · rintro ⟨-, hfind⟩
            exact Or.inl (Option.some.inj hfind).symm
        · have hne : (x.slot == r.slot) = false := beq_false_of_ne hslot
          have hr : r ≠ x := fun h => hslot (h ▸ rfl)
          simp [hne, hr, Ne.symm hslot]

theorem firsts_slots_nodup : ((firsts seen rs).map RouterRule.slot).Nodup := by
  induction rs generalizing seen with
  | nil => simp [firsts]
  | cons x rs ih =>
      unfold firsts
      split
      · exact ih
      · rw [List.map_cons, List.nodup_cons]
        refine ⟨fun hmem => ?_, ih⟩
        obtain ⟨r, hr, hslot⟩ := List.mem_map.mp hmem
        exact (mem_firsts.mp hr).1 (hslot ▸ List.mem_cons_self)

theorem firsts_perm (seen : List Slot) (rs : List RouterRule) :
    (firsts seen rs ++ duplicates seen rs).Perm rs := by
  induction rs generalizing seen with
  | nil => exact List.Perm.refl _
  | cons x rs ih =>
      unfold firsts duplicates
      split
      · exact List.perm_middle.trans ((ih _).cons x)
      · exact (ih _).cons x

theorem find?_slot_eq_some_iff (hnd : (rs.map RouterRule.slot).Nodup) :
    rs.find? (fun s => s.slot == slot) = some r ↔ r ∈ rs ∧ r.slot = slot := by
  constructor
  · intro h
    exact ⟨List.mem_of_find?_eq_some h, by simpa using List.find?_some h⟩
  · rintro ⟨hr, rfl⟩
    cases hfind : rs.find? (fun s => s.slot == r.slot) with
    | none =>
        have := List.find?_eq_none.mp hfind r hr
        simp at this
    | some s =>
        have hs := List.mem_of_find?_eq_some hfind
        have hslot : s.slot = r.slot := by simpa using List.find?_some hfind
        rw [List.inj_on_of_nodup_map hnd hs hr hslot]

theorem find?_current (le : RouterRule → RouterRule → Bool) :
    ((firsts [] owned).mergeSort le).find? (fun s => s.slot == slot) =
      owned.find? fun s => s.slot == slot := by
  have hnd : (((firsts [] owned).mergeSort le).map RouterRule.slot).Nodup :=
    ((List.mergeSort_perm _ _).map _).nodup_iff.mpr firsts_slots_nodup
  apply Option.ext
  intro r
  rw [find?_slot_eq_some_iff hnd, List.mem_mergeSort, mem_firsts]
  constructor
  · rintro ⟨⟨-, hfind⟩, rfl⟩
    exact hfind
  · intro hfind
    have hslot : r.slot = slot := by simpa using List.find?_some hfind
    exact ⟨⟨List.not_mem_nil, hslot ▸ hfind⟩, hslot⟩

theorem wantedBySlot_eq_self (h : (desired.map DesiredRule.slot).Nodup) :
    wantedBySlot desired = desired := by
  induction desired with
  | nil => rfl
  | cons d ds ih =>
      rw [List.map_cons, List.nodup_cons] at h
      have hnone : (ds.any fun s => s.slot == d.slot) = false := by
        rw [List.any_eq_false]
        intro s hs heq
        exact h.1 (List.mem_map.mpr ⟨s, hs, by simpa using heq⟩)
      unfold wantedBySlot
      rw [hnone, ih h.2]
      rfl

def stale (owned : List RouterRule) (desired : List DesiredRule) : List RouterRule :=
  (firsts [] owned).filter fun r => !desired.any fun d => d.slot == r.slot

/-- **The steps of an adjustment, whatever their order.** -/
theorem compute_perm (owned : List RouterRule) (claimed : List Slot)
    (h : (desired.map DesiredRule.slot).Nodup) :
    (compute owned desired claimed).Perm
      ((duplicates [] owned ++ stale owned desired).filterMap
          (Operation.deleteOwned? · .portNoLongerDesired) ++
        desired.filterMap (step? owned claimed)) := by
  unfold compute
  rw [wantedBySlot_eq_self h]
  refine List.Perm.append (List.Perm.filterMap _
    (List.Perm.append (List.Perm.refl _) ?_)) ?_
  · have hany : ∀ r : RouterRule, ((desired.mergeSort fun r s => r.slot.le s.slot).any
        fun w => w.slot == r.slot) = desired.any fun w => w.slot == r.slot :=
      fun r => (List.mergeSort_perm desired _).any_eq
    simp only [hany]
    exact (List.mergeSort_perm _ _).filter _
  · have hstep : ∀ d, step? ((firsts [] owned).mergeSort fun r s =>
      r.slot.le s.slot) claimed d = step? owned claimed d := by
      intro d
      unfold step?
      rw [find?_current]
    rw [List.filterMap_congr fun d _ => hstep d]
    exact (List.mergeSort_perm _ _).filterMap _

end Adjustment

/-! ## Hosts -/

namespace Takeover

variable {key : ServiceKey} {rules : List RouterRule} {desired : List DesiredRule}
  {d : DesiredRule} {r : RouterRule} {op : Operation}

/-- The rule that is to become a wanted one: the first owned rule on its slot,
otherwise the first rule of another there. -/
def host? (key : ServiceKey) (rules : List RouterRule) (d : DesiredRule) :
    Option RouterRule :=
  ((ownedRules key rules).find? fun r => r.slot == d.slot).or
    (rules.find? fun r => r.slot == d.slot && !r.isOwnedBy key)

def hosts (key : ServiceKey) (rules : List RouterRule) (desired : List DesiredRule) :
    List Hosting :=
  desired.map fun d => (d, host? key rules d)

/-- A rule of another is on the slot of the wanted rule, and none that is owned. -/
def contested (key : ServiceKey) (rules : List RouterRule) (d : DesiredRule) : Bool :=
  (rules.any fun r => r.slot == d.slot && !r.isOwnedBy key) &&
    !(ownedRules key rules).any fun r => r.slot == d.slot

/-- **A wanted rule has an owned host, takes a rule over, or has no host.** -/
inductive Situation (key : ServiceKey) (rules : List RouterRule)
    (d : DesiredRule) : Prop where
  | owned (r : RouterRule) (mem : r ∈ rules) (slot : r.slot = d.slot)
      (isOwned : r.isOwnedBy key = true)
      (find : (ownedRules key rules).find? (fun r => r.slot == d.slot) = some r)
      (host : host? key rules d = some r) (on : on? key rules d = none)
      (free : contested key rules d = false)
  | foreign (r : RouterRule) (mem : r ∈ rules) (slot : r.slot = d.slot)
      (isForeign : r.isOwnedBy key = false)
      (find : (ownedRules key rules).find? (fun r => r.slot == d.slot) = none)
      (host : host? key rules d = some r)
      (on : on? key rules d = some (.update d r .ownershipTakeover (mismatches d r)))
      (taken : contested key rules d = true)
  | vacant (find : (ownedRules key rules).find? (fun r => r.slot == d.slot) = none)
      (host : host? key rules d = none) (on : on? key rules d = none)
      (free : contested key rules d = false)

theorem situation (key : ServiceKey) (rules : List RouterRule) (d : DesiredRule) :
    Situation key rules d := by
  cases howned : (ownedRules key rules).find? fun r => r.slot == d.slot with
  | some r =>
      obtain ⟨hmem, hkey⟩ := List.mem_filter.mp (List.mem_of_find?_eq_some howned)
      have hslot : r.slot = d.slot := by simpa using List.find?_some howned
      have hany : ((ownedRules key rules).any fun r => r.slot == d.slot) = true :=
        List.any_eq_true.mpr ⟨r, List.mem_of_find?_eq_some howned, by simp [hslot]⟩
      exact .owned r hmem hslot hkey howned (by simp [host?, howned])
        (by simp [on?, hany]) (by simp [contested, hany])
  | none =>
      have hany : ((ownedRules key rules).any fun r => r.slot == d.slot) = false := by
        rw [List.any_eq_false]
        exact fun r hr => List.find?_eq_none.mp howned r hr
      cases hforeign : rules.find? fun r => r.slot == d.slot && !r.isOwnedBy key with
      | some r =>
          have htest := List.find?_some hforeign
          have hsome : (rules.any fun r => r.slot == d.slot && !r.isOwnedBy key) = true :=
            List.any_eq_true.mpr ⟨r, List.mem_of_find?_eq_some hforeign, htest⟩
          rw [Bool.and_eq_true, beq_iff_eq, Bool.not_eq_true'] at htest
          exact .foreign r (List.mem_of_find?_eq_some hforeign) htest.1 htest.2 howned
            (by simp [host?, howned, hforeign]) (by simp [on?, hany, hforeign])
            (by simp [contested, hany, hsome])
      | none =>
          have hnone : (rules.any fun r => r.slot == d.slot && !r.isOwnedBy key) =
              false := by
            rw [List.any_eq_false]
            exact fun r hr => List.find?_eq_none.mp hforeign r hr
          exact .vacant howned (by simp [host?, howned, hforeign])
            (by simp [on?, hany, hforeign]) (by simp [contested, hnone])

theorem host_fits (h : host? key rules d = some r) : r ∈ rules ∧ r.slot = d.slot := by
  rcases situation key rules d with
    ⟨r', hmem, hslot, -, -, hhost, -, -⟩ | ⟨r', hmem, hslot, -, -,
      hhost, -, -⟩ | ⟨-, hhost, -, -⟩
  · obtain rfl := Option.some.inj (hhost.symm.trans h)
    exact ⟨hmem, hslot⟩
  · obtain rfl := Option.some.inj (hhost.symm.trans h)
    exact ⟨hmem, hslot⟩
  · exact absurd (hhost.symm.trans h) (by simp)

theorem rules_hosts : Hosting.rules (hosts key rules desired) =
    desired.filterMap (host? key rules) := by
  unfold Hosting.rules hosts
  rw [List.filterMap_map]
  rfl

theorem mem_hosts {host : Option RouterRule} : (d, host) ∈ hosts key rules desired ↔
    d ∈ desired ∧ host? key rules d = host := by
  unfold hosts
  rw [List.mem_map]
  constructor
  · rintro ⟨d', hd', heq⟩
    obtain ⟨rfl, hhost⟩ := Prod.mk.inj heq
    exact ⟨hd', hhost⟩
  · rintro ⟨hd, hhost⟩
    exact ⟨d, hd, by rw [hhost]⟩

theorem hosts_map_fst : (hosts key rules desired).map Prod.fst = desired := by
  unfold hosts
  rw [List.map_map]
  exact List.map_id desired

theorem foreign_hosts_slots :
    ((Hosting.rules (hosts key rules desired)).filter fun r => !r.isOwnedBy key).map
      RouterRule.slot = (desired.filter (contested key rules)).map
        DesiredRule.slot := by
  rw [rules_hosts]
  induction desired with
  | nil => rfl
  | cons d desired ih =>
      rcases situation key rules d with ⟨r, -, -, hkey, -, hhost, -, hfree⟩ |
        ⟨r, -, hslot, hkey, -, hhost, -, htaken⟩ | ⟨-, hhost, -, hfree⟩
      · rw [List.filterMap_cons_some hhost, List.filter_cons_of_neg (by simp [hkey]),
          List.filter_cons_of_neg (by simp [hfree]), ih]
      · rw [List.filterMap_cons_some hhost, List.filter_cons_of_pos (by simp [hkey]),
          List.filter_cons_of_pos htaken, List.map_cons, List.map_cons, ih, hslot]
      · rw [List.filterMap_cons_none hhost, List.filter_cons_of_neg (by simp [hfree]), ih]

/-! ## The detected takeovers -/

theorem takeover_of_on? (h : on? key rules d = some op) :
    ∃ r ∈ rules, op = .update d r .ownershipTakeover (mismatches d r) := by
  rcases situation key rules d with ⟨_, -, -, -, -, -, hnone, -⟩ | ⟨r,
    hmem, -, -, -, -, hsome, -⟩ | ⟨-, -, hnone, -⟩
  · exact absurd (hnone.symm.trans h) (by simp)
  · exact ⟨r, hmem, Option.some.inj (h.symm.trans hsome)⟩
  · exact absurd (hnone.symm.trans h) (by simp)

theorem on?_isSome : (on? key rules d).isSome = contested key rules d := by
  rcases situation key rules d with ⟨_, -, -, -, -, -, hon, hfree⟩ |
    ⟨_, -, -, -, -, -, hon, htaken⟩ | ⟨-, -, hon, hfree⟩
  · rw [hon, hfree]
    rfl
  · rw [hon, htaken]
    rfl
  · rw [hon, hfree]
    rfl

/-- A takeover is still valid against every listing in which the rules are that
called for it. -/
theorem revalidate_detect_of_subset {fresh : List RouterRule} (h : rules ⊆ fresh) :
    revalidate (detect key desired rules) fresh = detect key desired rules := by
  refine List.filter_eq_self.mpr fun op hop => ?_
  obtain ⟨d, -, hon⟩ := List.mem_filterMap.mp hop
  obtain ⟨r, hmem, rfl⟩ := takeover_of_on? hon
  exact List.any_eq_true.mpr ⟨r, h hmem, by simp⟩

theorem revalidate_detect :
    revalidate (detect key desired rules) rules = detect key desired rules :=
  revalidate_detect_of_subset (List.Subset.refl _)

theorem contains_detect (key : ServiceKey) (rules : List RouterRule)
    (hnd : (desired.map DesiredRule.slot).Nodup) (hd : d ∈ desired) :
    ((detect key desired rules).map Operation.slot).contains d.slot =
      contested key rules d := by
  rw [Bool.eq_iff_iff, List.contains_iff_mem, List.mem_map, ← on?_isSome,
    Option.isSome_iff_exists]
  constructor
  · rintro ⟨op, hop, hslot⟩
    obtain ⟨d', hd', hon⟩ := List.mem_filterMap.mp hop
    obtain ⟨r, -, rfl⟩ := takeover_of_on? hon
    obtain rfl : d' = d := List.inj_on_of_nodup_map hnd hd' hd hslot
    exact ⟨_, hon⟩
  · rintro ⟨op, hon⟩
    obtain ⟨r, -, rfl⟩ := takeover_of_on? hon
    exact ⟨_, List.mem_filterMap.mpr ⟨d, hd, hon⟩, rfl⟩

end Takeover

/-! ## The plan -/

section

variable {key : ServiceKey} {rules : List RouterRule} {desired : List DesiredRule}
  {op : Operation}

open Takeover Adjustment Operation

/-- Two partial functions of which one is silent wherever the other speaks. -/
theorem perm_filterMap_append {α β : Type} {l : List α} {f g h : α → Option β}
    (hsplit : ∀ a ∈ l, (f a = none ∧ g a = h a) ∨ (g a = none ∧ f a = h a)) :
    (l.filterMap f ++ l.filterMap g).Perm (l.filterMap h) := by
  induction l with
  | nil => exact List.Perm.refl _
  | cons a l ih =>
      have hrest := ih fun b hb => hsplit b (List.mem_cons_of_mem _ hb)
      rcases hsplit a List.mem_cons_self with ⟨hf, hg⟩ | ⟨hg, hf⟩ <;> cases hh : h a
      · simpa [hf, hg, hh] using hrest
      · simpa [hf, hg, hh] using List.perm_middle.trans (hrest.cons _)
      · simpa [hf, hg, hh] using hrest
      · simpa [hf, hg, hh] using hrest

def claimedSlots (key : ServiceKey) (desired : List DesiredRule)
    (rules : List RouterRule) : List Slot :=
  (detect key desired rules).map Operation.slot

/-- The owned rules that go: duplicates, and rules on slots that are not wanted. -/
def surplus (key : ServiceKey) (desired : List DesiredRule)
    (rules : List RouterRule) : List RouterRule :=
  duplicates [] (ownedRules key rules) ++ stale (ownedRules key rules) desired

theorem mem_owned_of_surplus {r : RouterRule} (h : r ∈ surplus key desired rules) :
    r ∈ ownedRules key rules := by
  refine (firsts_perm [] (ownedRules key rules)).mem_iff.mp ?_
  rcases List.mem_append.mp h with h | h
  · exact List.mem_append_right _ h
  · exact List.mem_append_left _ (List.mem_filter.mp h).1

/-- **What a plan is made of, whatever its order**: takeovers, deletions
and steps. -/
theorem planFor_perm_takeovers (key : ServiceKey) (rules : List RouterRule)
    (takeovers : List Operation) (h : (desired.map DesiredRule.slot).Nodup) :
    (planFor key desired rules takeovers).Perm
      (takeovers ++
        ((surplus key desired rules).filterMap
          (deleteOwned? · .portNoLongerDesired) ++
          desired.filterMap (step? (ownedRules key rules)
            (takeovers.map Operation.slot)))) :=
  (List.mergeSort_perm _ _).trans ((List.Perm.refl _).append (compute_perm _ _ h))

/-- The parts of a plan whose takeovers are those that its listing calls for. -/
theorem planFor_perm (key : ServiceKey) (rules : List RouterRule)
    (h : (desired.map DesiredRule.slot).Nodup) :
    (planFor key desired rules (detect key desired rules)).Perm
      (desired.filterMap (on? key rules) ++
        ((surplus key desired rules).filterMap
          (deleteOwned? · .portNoLongerDesired) ++ desired.filterMap
            (step? (ownedRules key rules) (claimedSlots key desired rules)))) :=
  planFor_perm_takeovers key rules (detect key desired rules) h

/-- One operation of the plan overwrites a rule, deletes an owned one or
creates one. -/
theorem cases_of_mem_planFor (hasked : Asked key desired)
    (hop : op ∈ planFor key desired rules (detect key desired rules)) :
    (∃ d r reason ms, op = .update d r reason ms) ∨
    (∃ r ∈ ownedRules key rules, ∃ o : Owner, o.key = key ∧
      op = .delete ⟨o, r.spec⟩ r .portNoLongerDesired) ∨
    ∃ d reason, op = .create d reason := by
  have hparts := (planFor_perm key rules hasked.slots_nodup).mem_iff.mp hop
  rw [List.mem_append, List.mem_append] at hparts
  rcases hparts with hop | hop | hop
  · obtain ⟨d, -, hon⟩ := List.mem_filterMap.mp hop
    obtain ⟨r, -, rfl⟩ := takeover_of_on? hon
    exact Or.inl ⟨d, r, _, _, rfl⟩
  · obtain ⟨r, hr, hdelete⟩ := List.mem_filterMap.mp hop
    have howned := mem_owned_of_surplus hr
    obtain ⟨o, ho, hkey⟩ := RouterRule.isOwnedBy_iff.mp (List.mem_filter.mp howned).2
    refine Or.inr (Or.inl ⟨r, howned, o, hkey, ?_⟩)
    simpa [deleteOwned?, DesiredRule.ofRouterRule?, ho] using hdelete.symm
  · obtain ⟨d, -, hstep⟩ := List.mem_filterMap.mp hop
    unfold step? at hstep
    split at hstep
    · next r _ =>
        obtain ⟨-, hupdate⟩ := Option.ite_none_left_eq_some.mp hstep
        exact Or.inl ⟨d, r, _, _, (Option.some.inj hupdate).symm⟩
    · obtain ⟨-, hcreate⟩ := Option.ite_none_left_eq_some.mp hstep
      exact Or.inr (Or.inr ⟨d, _, (Option.some.inj hcreate).symm⟩)

/-- What is done about a wanted rule, by a takeover or by a step but never
by both. -/
theorem step_situation {d : DesiredRule} (rules : List RouterRule)
    (hasked : Asked key desired) (hd : d ∈ desired) :
    (∃ r, host? key rules d = some r ∧ on? key rules d = none ∧
      step? (ownedRules key rules) (claimedSlots key desired rules) d =
        if mismatches d r = [] then none
        else some (.update d r .configurationMismatchSafe (mismatches d r))) ∨
    (∃ r, host? key rules d = some r ∧ mismatches d r ≠ [] ∧
      on? key rules d = some (.update d r .ownershipTakeover (mismatches d r)) ∧
      step? (ownedRules key rules) (claimedSlots key desired rules) d = none) ∨
    (host? key rules d = none ∧ on? key rules d = none ∧
      step? (ownedRules key rules) (claimedSlots key desired rules) d =
        some (.create d .portNotYetExists)) := by
  have hclaimed := contains_detect key rules hasked.slots_nodup hd
  unfold step? claimedSlots
  rcases situation key rules d with ⟨r, -, -, -, hfind, hhost, hon, -⟩ |
    ⟨r, -, -, hforeign, hfind, hhost, hon, htaken⟩ | ⟨hfind, hhost, hon, hfree⟩
  · exact Or.inl ⟨r, hhost, hon, by simp [hfind, List.isEmpty_iff]⟩
  · have hne := mismatches_ne_nil_of_foreign (hasked.owner d hd) hforeign
    exact Or.inr (Or.inl
      ⟨r, hhost, hne, hon, by simp only [hfind, hclaimed, htaken, if_true]⟩)
  · exact Or.inr (Or.inr ⟨hhost, hon, by simp only [hfind, hclaimed, hfree]; rfl⟩)

/-- One part of the plan: of its takeovers, of its deletions and of its steps. -/
theorem parts_perm {β : Type} (part : Operation → Option β)
    (hasked : Asked key desired) :
    ((planFor key desired rules (detect key desired rules)).filterMap part).Perm
      ((desired.filterMap fun d => (on? key rules d).bind part) ++
        (((surplus key desired rules).filterMap
            (deleteOwned? · .portNoLongerDesired)).filterMap part ++
          desired.filterMap fun d =>
            (step? (ownedRules key rules) (claimedSlots key desired rules) d).bind
              part)) := by
  have hperm := (planFor_perm key rules hasked.slots_nodup).filterMap part
  rw [List.filterMap_append, List.filterMap_append, List.filterMap_filterMap] at hperm
  refine hperm.trans (List.Perm.append (List.Perm.refl _)
    (List.Perm.append (List.Perm.refl _) ?_))
  rw [List.filterMap_filterMap]

theorem parts_surplus (key : ServiceKey) (desired : List DesiredRule)
    (rules : List RouterRule) :
    Plan.deletions ((surplus key desired rules).filterMap
        (deleteOwned? · .portNoLongerDesired)) = surplus key desired rules ∧
    Plan.rewrites ((surplus key desired rules).filterMap
        (deleteOwned? · .portNoLongerDesired)) = [] ∧
    Plan.creations ((surplus key desired rules).filterMap
        (deleteOwned? · .portNoLongerDesired)) = [] :=
  Plan.parts_deleteOwned .portNoLongerDesired fun _ hr =>
    (List.mem_filter.mp (mem_owned_of_surplus hr)).2

theorem rewrites_planFor (hasked : Asked key desired) :
    (Plan.rewrites (planFor key desired rules (detect key desired rules))).Perm
      ((hosts key rules desired).filterMap Hosting.rewrite?) := by
  obtain ⟨-, hrewrites, -⟩ := parts_surplus key desired rules
  refine (parts_perm rewrite? hasked).trans ?_
  unfold Plan.rewrites at hrewrites
  rw [hrewrites, List.nil_append, hosts, List.filterMap_map]
  refine perm_filterMap_append fun d hd => ?_
  rcases step_situation rules hasked hd with ⟨r, hhost, hon, hstep⟩ |
    ⟨r, hhost, hne, hon, hstep⟩ | ⟨hhost, hon, hstep⟩
  · refine Or.inl ⟨by simp [hon], ?_⟩
    by_cases hnil : mismatches d r = [] <;>
      simp [hstep, hhost, hnil, Hosting.rewrite?, rewrite?, update]
  · exact Or.inr ⟨by simp [hstep], by
      simp [hon, hhost, hne, Hosting.rewrite?, rewrite?, update]⟩
  · exact Or.inl ⟨by simp [hon], by
      simp [hstep, hhost, Hosting.rewrite?, rewrite?, create]⟩

theorem creations_planFor (hasked : Asked key desired) :
    (Plan.creations (planFor key desired rules (detect key desired rules))).Perm
      ((hosts key rules desired).filterMap Hosting.creation?) := by
  obtain ⟨-, -, hcreations⟩ := parts_surplus key desired rules
  refine (parts_perm creation? hasked).trans ?_
  unfold Plan.creations at hcreations
  rw [hcreations, List.nil_append, hosts, List.filterMap_map]
  refine perm_filterMap_append fun d hd => Or.inl ?_
  rcases step_situation rules hasked hd with ⟨r, hhost, hon, hstep⟩ |
    ⟨r, hhost, hne, hon, hstep⟩ | ⟨hhost, hon, hstep⟩
  · refine ⟨by simp [hon], ?_⟩
    by_cases hnil : mismatches d r = [] <;>
      simp [hstep, hhost, hnil, Hosting.creation?, creation?, update]
  · exact ⟨by simp [hon, creation?, update], by simp [hstep, hhost, Hosting.creation?]⟩
  · exact ⟨by simp [hon], by simp [hstep, hhost, Hosting.creation?, creation?, create]⟩

theorem deletions_planFor (hasked : Asked key desired) :
    (Plan.deletions (planFor key desired rules (detect key desired rules))).Perm
      (surplus key desired rules) := by
  obtain ⟨hdeletions, -, -⟩ := parts_surplus key desired rules
  unfold Plan.deletions at hdeletions
  have htakeovers :
      (desired.filterMap fun d => (on? key rules d).bind deleted?) = [] := by
    refine List.filterMap_eq_nil_iff.mpr fun d hd => ?_
    rcases step_situation rules hasked hd with
      ⟨r, -, hon, -⟩ | ⟨r, -, -, hon, -⟩ | ⟨-, hon, -⟩ <;>
      simp [hon, deleted?, update]
  have hsteps : (desired.filterMap fun d =>
      (step? (ownedRules key rules) (claimedSlots key desired rules) d).bind
      deleted?) = [] := by
    refine List.filterMap_eq_nil_iff.mpr fun d hd => ?_
    rcases step_situation rules hasked hd with ⟨r, -, -, hstep⟩ | ⟨r, -, -, -, hstep⟩ |
      ⟨-, -, hstep⟩
    · by_cases hnil : mismatches d r = [] <;> simp [hstep, hnil, deleted?, update]
    · simp [hstep]
    · simp [hstep, deleted?, create]
  refine (parts_perm deleted? hasked).trans (List.Perm.of_eq ?_)
  rw [htakeovers, hsteps, hdeletions, List.nil_append, List.append_nil]

theorem hosts_slots_nodup (hasked : Asked key desired) :
    ((hosts key rules desired).map fun host => host.1.slot).Nodup := by
  unfold hosts
  rw [List.map_map]
  exact hasked.slots_nodup

theorem firsts_wanted_perm (rules : List RouterRule) (hasked : Asked key desired) :
    ((firsts [] (ownedRules key rules)).filter
        fun r => desired.any fun d => d.slot == r.slot).Perm
      ((Hosting.rules (hosts key rules desired)).filter
        (RouterRule.isOwnedBy · key)) := by
  have hfirsts : (firsts [] (ownedRules key rules)).Nodup := firsts_slots_nodup.of_map _
  have hhosts : (Hosting.rules (hosts key rules desired)).Nodup :=
    Hosting.rules_nodup (hosts_slots_nodup hasked) fun d r hr =>
      (host_fits (mem_hosts.mp hr).2).2
  -- neither list has a rule twice, so that it is enough to compare their members
  refine (List.perm_ext_iff_of_nodup (hfirsts.filter _) (hhosts.filter _)).mpr fun r => ?_
  rw [List.mem_filter, List.mem_filter, mem_firsts, rules_hosts, List.mem_filterMap,
    List.any_eq_true]
  constructor
  · rintro ⟨⟨-, hfind⟩, d, hd, hslot⟩
    have hslot : d.slot = r.slot := by simpa using hslot
    have hmem := List.mem_of_find?_eq_some hfind
    refine ⟨⟨d, hd, ?_⟩, (List.mem_filter.mp hmem).2⟩
    unfold host?
    rw [hslot, hfind]
    rfl
  · rintro ⟨⟨d, hd, hhost⟩, hkey⟩
    rcases situation key rules d with ⟨r', -, hslot, -, hfind, hhost', -, -⟩ |
      ⟨r', -, -, hforeign, -, hhost', -, -⟩ | ⟨-, hhost', -, -⟩
    · obtain rfl := Option.some.inj (hhost'.symm.trans hhost)
      exact ⟨⟨List.not_mem_nil, hslot ▸ hfind⟩, d, hd, by simp [hslot]⟩
    · obtain rfl := Option.some.inj (hhost'.symm.trans hhost)
      exact absurd (hkey.symm.trans hforeign) (by simp)
    · exact absurd (hhost'.symm.trans hhost) (by simp)

theorem owned_accounted (hasked : Asked key desired) :
    (ownedRules key rules).Perm
      ((Hosting.rules (hosts key rules desired)).filter
        (RouterRule.isOwnedBy · key) ++ surplus key desired rules) := by
  have hhosts := firsts_wanted_perm rules hasked
  -- the owned rules are the first ones on their slots, wanted or stale, and the
  -- duplicates
  have hsplit := List.filter_append_perm (fun r => desired.any fun d => d.slot == r.slot)
    (firsts [] (ownedRules key rules))
  have hall := firsts_perm [] (ownedRules key rules)
  rw [List.perm_iff_count] at hhosts hsplit hall ⊢
  intro c
  have h₁ := hhosts c
  have h₂ := hsplit c
  have h₃ := hall c
  simp only [List.count_append, surplus, stale] at h₁ h₂ h₃ ⊢
  omega

/-- **The plan after a change settles what is asked for**, under whatever names. -/
theorem Asked.settles_planFor (rules : List RouterRule) (hasked : Asked key desired) :
    Plan.Settles key rules (hosts key rules desired)
      (planFor key desired rules (detect key desired rules)) := by
  constructor
  · intro op hop hk
    rcases cases_of_mem_planFor hasked hop with
      ⟨d, r, reason, ms, rfl⟩ | ⟨r, -, o, -, rfl⟩ | ⟨d, reason, rfl⟩
    · rfl
    · rfl
    · exact absurd rfl hk
  · exact hosts_slots_nodup hasked
  · intro d r hr
    exact host_fits (mem_hosts.mp hr).2
  · exact rewrites_planFor hasked
  · exact creations_planFor hasked
  · exact (owned_accounted hasked).trans
      (List.Perm.append_left _ (deletions_planFor hasked).symm)

theorem settles_planFor (rules : List RouterRule) (hwanted : Wanted key desired) :
    Plan.Settles key rules (hosts key rules desired)
      (planFor key desired rules (detect key desired rules)) :=
  hwanted.asked.settles_planFor rules

/-! ## Nothing is left to do -/

theorem duplicates_eq_nil {seen : List Slot} {rs : List RouterRule}
    (hnd : (rs.map RouterRule.slot).Nodup) (hseen : ∀ r ∈ rs, r.slot ∉ seen) :
    duplicates seen rs = [] := by
  induction rs generalizing seen with
  | nil => rfl
  | cons r rs ih =>
      rw [List.map_cons, List.nodup_cons] at hnd
      unfold duplicates
      rw [if_neg fun h => hseen r List.mem_cons_self (List.contains_iff_mem.mp h)]
      refine ih hnd.2 fun s hs hmem => ?_
      rcases List.mem_cons.mp hmem with hslot | hmem
      · exact hnd.1 (hslot ▸ List.mem_map_of_mem hs)
      · exact hseen s (List.mem_cons_of_mem _ hs) hmem

/-- Where the Service owns what it wants, an owned rule on each wanted slot is
as wanted. -/
theorem Converged.find (hasked : Asked key desired) (h : Converged key desired rules)
    {d : DesiredRule} (hd : d ∈ desired) :
    ∃ r ∈ ownedRules key rules, r.slot = d.slot ∧
      (ownedRules key rules).find? (fun r => r.slot == d.slot) = some r ∧
        mismatches d r = [] := by
  have hnd : ((ownedRules key rules).map RouterRule.slot).Nodup :=
    h.slots.nodup_iff.mpr hasked.slots_nodup
  obtain ⟨r, hr, hslot⟩ := List.mem_map.mp (h.slots.mem_iff.mpr (List.mem_map_of_mem hd))
  refine ⟨r, hr, hslot, (find?_slot_eq_some_iff hnd).mpr ⟨hr, hslot⟩, ?_⟩
  obtain ⟨d', hd', hmeets⟩ := h.meets r hr
  -- the rule meets some wanted rule, and on this slot there is only one
  obtain rfl := hasked.eq_of_slot_eq hd' hd (hmeets.slot.symm.trans hslot)
  refine mismatches_eq_nil_iff.mpr ⟨?_, hmeets⟩
  rw [hasked.owner d' hd']
  exact (List.mem_filter.mp hr).2

theorem Asked.detect_of_converged (hasked : Asked key desired)
    (h : Converged key desired rules) : detect key desired rules = [] := by
  refine List.filterMap_eq_nil_iff.mpr fun d hd => ?_
  obtain ⟨r, hr, hslot, -, -⟩ := h.find hasked hd
  unfold on?
  rw [if_pos (List.any_eq_true.mpr ⟨r, hr, by simp [hslot]⟩)]

/-- **Where the Service owns what it wants, nothing is planned.** -/
theorem Asked.planFor_of_converged (hasked : Asked key desired)
    (h : Converged key desired rules) : planFor key desired rules [] = [] := by
  have hnd : ((ownedRules key rules).map RouterRule.slot).Nodup :=
    h.slots.nodup_iff.mpr hasked.slots_nodup
  have hduplicates : duplicates [] (ownedRules key rules) = [] :=
    duplicates_eq_nil hnd fun _ _ => List.not_mem_nil
  have hstale : stale (ownedRules key rules) desired = [] := by
    refine List.filter_eq_nil_iff.mpr fun r hr => ?_
    have hmem := List.mem_of_find?_eq_some (mem_firsts.mp hr).2
    obtain ⟨d, hd, hslot⟩ :=
      List.mem_map.mp (h.slots.mem_iff.mp (List.mem_map_of_mem hmem))
    simp only [Bool.not_eq_true', Bool.not_eq_false, List.any_eq_true, beq_iff_eq]
    exact ⟨d, hd, hslot⟩
  have hsteps : desired.filterMap (step? (ownedRules key rules) []) = [] := by
    refine List.filterMap_eq_nil_iff.mpr fun d hd => ?_
    obtain ⟨r, -, -, hfind, hnil⟩ := h.find hasked hd
    simp [step?, hfind, hnil]
  have hcompute := compute_perm (ownedRules key rules) [] hasked.slots_nodup
  rw [hduplicates, hstale, hsteps] at hcompute
  unfold planFor Operation.sequence
  rw [List.nil_append, List.map_nil, hcompute.eq_nil, List.mergeSort_nil]

theorem detect_of_converged (hwanted : Wanted key desired)
    (h : Converged key desired rules) : detect key desired rules = [] :=
  hwanted.asked.detect_of_converged h

theorem planFor_of_converged (hwanted : Wanted key desired)
    (h : Converged key desired rules) : planFor key desired rules [] = [] :=
  hwanted.asked.planFor_of_converged h

end

/-! ## Convergence -/

open Takeover in
/-- **The plan after a change converges.** The Service owns afterwards what it
wants. Of the rules of others exactly one on each contested slot has changed hands
and kept its identifier, and all the rest are as they were. Nothing is then left
to take over or to do. -/
theorem planFor_converges {key : ServiceKey} {desired : List DesiredRule}
    {rules : List RouterRule} {fresh : Nat → String} (hkey : key.Valid)
    (hwanted : Wanted key desired) (hnd : (ids rules).Nodup)
    (hfresh : Plan.Fresh fresh 0 rules) :
    let plan := planFor key desired rules (revalidate (detect key desired rules) rules)
    let after := Operation.applyAll fresh 0 rules plan
    Converged key desired after ∧
    (∃ taken : List RouterRule,
      taken.map RouterRule.slot =
        (desired.filter (contested key rules)).map DesiredRule.slot ∧
      (∀ t ∈ taken, ∃ d ∈ desired, d.slot = t.slot ∧ ⟨t.id, d.spec⟩ ∈ after) ∧
      (rules.filter fun r => !r.isOwnedBy key).Perm
        ((after.filter fun r => !r.isOwnedBy key) ++ taken)) ∧
    detect key desired after = [] ∧
    planFor key desired after (revalidate (detect key desired after) after) = [] := by
  intro plan after
  have hplan : plan = planFor key desired rules (detect key desired rules) := by
    show planFor key desired rules (revalidate (detect key desired rules) rules) = _
    rw [revalidate_detect]
  have hsettles := settles_planFor rules hwanted
  rw [← hplan] at hsettles
  have hhosts : (hosts key rules desired).map Prod.fst = desired := by
    unfold hosts
    rw [List.map_map]
    exact List.map_id desired
  obtain ⟨hconverged, hothers, hkept⟩ := hsettles.outcome hkey hwanted hnd hhosts hfresh
  have hdetect : detect key desired after = [] := detect_of_converged hwanted hconverged
  refine ⟨hconverged, ⟨_, foreign_hosts_slots, ?_, ?_⟩, hdetect, ?_⟩
  · intro t ht
    obtain ⟨hhost, hforeign⟩ := List.mem_filter.mp ht
    rw [rules_hosts] at hhost
    obtain ⟨d, hd, hhost⟩ := List.mem_filterMap.mp hhost
    refine ⟨d, hd, (host_fits hhost).2.symm, hkept d t (mem_hosts.mpr ⟨hd, hhost⟩) ?_⟩
    exact mismatches_ne_nil_of_foreign (hwanted.owner d hd) (by simpa using hforeign)
  · exact (hsettles.others_perm hnd).trans (List.Perm.append_right _ hothers.symm)
  · rw [hdetect]
    exact planFor_of_converged hwanted hconverged

open Takeover Sample in
theorem planFor_converges_sample :
    let plan :=
      planFor key desired rules (revalidate (detect key desired rules) rules)
    let after := Operation.applyAll Sample.fresh 0 rules plan
    Converged key desired after ∧
    (∃ taken : List RouterRule,
      taken.map RouterRule.slot =
        (desired.filter (contested key rules)).map DesiredRule.slot ∧
      (∀ t ∈ taken, ∃ d ∈ desired, d.slot = t.slot ∧ ⟨t.id, d.spec⟩ ∈ after) ∧
      (rules.filter fun r => !r.isOwnedBy key).Perm
        ((after.filter fun r => !r.isOwnedBy key) ++ taken)) ∧
    detect key desired after = [] ∧
    planFor key desired after (revalidate (detect key desired after) after) = [] :=
  planFor_converges key_valid wanted (by decide) Sample.fresh_rules

end PortForwarding
