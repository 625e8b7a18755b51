import Mathlib.Data.List.Sort
import PortForwarding.Proofs.Plan.Revalidation

/-!
# Plans and the order of listings

The router lists its rules in any order, and so does an annotation what a Service
wants. Where no two rules of a list are on one slot, a search by slot finds the
same rule in every order of it, so what is planned is the same up to order. The
order of execution settles the rest. It leaves only operations of one kind on one
slot as they come, and there are no two such takeovers and no two such steps
(`Operation.sequence_append_perm`). A takeover and a step may be, but the
takeovers come first in any case. So the plan is the same in each of its
operations and in their order (`planFor_reordered`).
-/

namespace PortForwarding

theorem Protocol.rank_injective : Function.Injective Protocol.rank := by
  intro p q h
  cases p <;> cases q <;> simp_all [Protocol.rank]

/-! ## The order of execution, operation by operation -/

namespace Operation

variable {a b : Operation} {ops ops' rest rest' : List Operation}

/-- An operation among others that are in order of execution: before all that may
not run earlier. -/
def place (op : Operation) (ops : List Operation) : List Operation :=
  ops.orderedInsert (fun a b => a.before b = true) op

theorem place_cons (a b : Operation) (ops : List Operation) :
    place a (b :: ops) = if a.before b = true then a :: b :: ops else b ::
      place a ops :=
  List.orderedInsert_cons _ _ _ _

theorem place_before (l₁ : List Operation) {l₂ : List Operation}
    (hleft : ∀ b ∈ l₁, a.before b = false) (hright : ∀ b ∈ l₂, a.before b = true) :
    place a (l₁ ++ l₂) = l₁ ++ a :: l₂ := by
  induction l₁ with
  | nil =>
      cases l₂ with
      | nil => rfl
      | cons b l₂ =>
          rw [List.nil_append, place_cons,
            if_pos (hright b List.mem_cons_self)]; rfl
  | cons b l₁ ih =>
      have hb : ¬ a.before b = true := by simp [hleft b List.mem_cons_self]
      have hrest := ih fun c hc => hleft c (List.mem_cons_of_mem b hc)
      rw [List.cons_append, place_cons, if_neg hb, hrest]
      rfl

theorem sequence_cons (a : Operation) (ops : List Operation) :
    sequence (a :: ops) = place a (sequence ops) := by
  obtain ⟨l₁, l₂, hsequence, hothers, hleft⟩ :=
    List.mergeSort_cons before_trans before_total a ops
  have hsorted := sequence_sorted (a :: ops)
  unfold sequence at hsorted ⊢
  rw [hsequence] at hsorted ⊢
  rw [hothers]
  have hright := (List.pairwise_cons.mp (List.pairwise_append.mp hsorted).2.1).1
  exact (place_before l₁ (fun b hb => by simpa using hleft b hb) hright).symm

theorem slot_eq_of_before (hab : a.before b = true) (hba : b.before a = true) :
    a.slot = b.slot := by
  rw [before_eq] at hab hba
  have hequals : order a b = .eq := Std.OrientedCmp.isLE_antisymm hab hba
  unfold order at hequals
  rw [compareLex_eq_eq, compareLex_eq_eq, compareLex_eq_eq] at hequals
  obtain ⟨-, hexternal, hinternal, hprotocol⟩ := hequals
  have hexternal := UInt16.toNat_inj.mp (Nat.compare_eq_eq.mp hexternal)
  have hinternal := UInt16.toNat_inj.mp (Nat.compare_eq_eq.mp hinternal)
  have hprotocol := Protocol.rank_injective (Nat.compare_eq_eq.mp hprotocol)
  cases ha : a.slot
  cases hb : b.slot
  simp_all

theorem place_comm_of_before (hab : a.before b = true) (hba : b.before a = false)
    (ops : List Operation) : place a (place b ops) = place b (place a ops) := by
  induction ops with
  | nil => simp [place, hab, hba]
  | cons c ops ih =>
      by_cases hb : b.before c = true
      · have ha := before_trans a b c hab hb
        simp [place_cons, hb, ha, hab, hba]
      · by_cases ha : a.before c = true
        · simp [place_cons, hb, ha, hba]
        · simp [place_cons, hb, ha, ih]

theorem place_comm (h : a.slot ≠ b.slot) (ops : List Operation) :
    place a (place b ops) = place b (place a ops) := by
  have htotal := before_total a b
  cases hab : a.before b with
  | false =>
      rw [hab, Bool.false_or] at htotal
      exact (place_comm_of_before htotal hab ops).symm
  | true =>
      cases hba : b.before a with
      | false => exact place_comm_of_before hab hba ops
      | true => exact absurd (slot_eq_of_before hab hba) h

theorem sequence_append_congr (ops : List Operation)
    (h : sequence rest = sequence rest') :
    sequence (ops ++ rest) = sequence (ops ++ rest') := by
  induction ops with
  | nil => exact h
  | cons a ops ih =>
      rw [List.cons_append, List.cons_append, sequence_cons, sequence_cons, ih]

theorem sequence_perm_append (h : ops.Perm ops') (hnd : (ops.map slot).Nodup)
    (rest : List Operation) : sequence (ops ++ rest) = sequence (ops' ++ rest) := by
  induction h with
  | nil => rfl
  | cons a _ ih =>
      rw [List.map_cons, List.nodup_cons] at hnd
      rw [List.cons_append, List.cons_append, sequence_cons, sequence_cons, ih hnd.2]
  | swap a b ops =>
      have hne : b.slot ≠ a.slot := by
        intro hslot
        simp [hslot] at hnd
      simp only [List.cons_append, sequence_cons]
      exact place_comm hne _
  | trans h _ ih ih' => exact (ih hnd).trans (ih' ((h.map slot).nodup_iff.mp hnd))

/-- **The order of execution does not depend on the order of two parts**, if no
part has two operations on one slot. -/
theorem sequence_append_perm (hops : ops.Perm ops') (hnd : (ops.map slot).Nodup)
    (hrest : rest.Perm rest') (hndrest : (rest.map slot).Nodup) :
    sequence (ops ++ rest) = sequence (ops' ++ rest') := by
  have hsame := sequence_perm_append hrest hndrest []
  rw [List.append_nil, List.append_nil] at hsame
  exact (sequence_perm_append hops hnd rest).trans (sequence_append_congr ops' hsame)

end Operation

/-! ## Lists with one rule on a slot -/

section

variable {key : ServiceKey}
  {first first' rules rules' owned owned' : List RouterRule}
  {desired desired' : List DesiredRule} {claimed claimed' : List Slot}
  {d : DesiredRule}

/-- A search on one slot finds the same rule in every order of the list. -/
theorem find?_slot_perm {p : RouterRule → Bool} (slot : Slot)
    (h : rules.Perm rules') (hnd : (rules.map RouterRule.slot).Nodup)
    (hslot : ∀ r, p r = true → r.slot = slot) :
    rules.find? p = rules'.find? p := by
  cases hfind : rules.find? p with
  | none =>
      rw [eq_comm, List.find?_eq_none]
      exact fun r hr => List.find?_eq_none.mp hfind r (h.mem_iff.mpr hr)
  | some r =>
      have hr := List.mem_of_find?_eq_some hfind
      have hp := List.find?_some hfind
      cases hfind' : rules'.find? p with
      | none => exact absurd hp (List.find?_eq_none.mp hfind' r (h.mem_iff.mp hr))
      | some r' =>
          have hr' := h.mem_iff.mpr (List.mem_of_find?_eq_some hfind')
          have hsame := (hslot r hp).trans (hslot r' (List.find?_some hfind')).symm
          rw [List.inj_on_of_nodup_map hnd hr hr' hsame]

/-- Operations on the slots of what they are planned for are on different ones as
this is. -/
theorem slots_filterMap_nodup {α : Type} {plan : α → Option Operation}
    {on : α → Slot} {l : List α}
    (hplan : ∀ a op, plan a = some op → op.slot = on a) (hnd : (l.map on).Nodup) :
    ((l.filterMap plan).map Operation.slot).Nodup := by
  have hsub : ((l.filterMap plan).map Operation.slot).Sublist (l.map on) := by
    clear hnd
    induction l with
    | nil => exact List.Sublist.refl _
    | cons a l ih =>
        cases hop : plan a with
        | none =>
            rw [List.filterMap_cons_none hop]
            exact ih.cons _
        | some op =>
            rw [List.filterMap_cons_some hop, List.map_cons, List.map_cons,
              hplan a op hop]
            exact ih.cons_cons _
  exact hnd.sublist hsub

/-! ## Takeovers -/

namespace Takeover

theorem on?_perm (h : rules.Perm rules') (hnd : (rules.map RouterRule.slot).Nodup)
    (d : DesiredRule) : on? key rules d = on? key rules' d := by
  unfold on?
  have howned : (ownedRules key rules).Perm (ownedRules key rules') := h.filter _
  rw [howned.any_eq, find?_slot_perm d.slot h hnd fun r hr => ?_]
  rw [Bool.and_eq_true, beq_iff_eq] at hr
  exact hr.1

theorem stillThere_perm (h : rules.Perm rules') (op : Operation) :
    stillThere rules op = stillThere rules' op := by
  unfold stillThere
  cases op.existing with
  | none => rfl
  | some e => exact h.any_eq

theorem surviving?_perm (hfirst : first.Perm first')
    (hnd : (first.map RouterRule.slot).Nodup) (hrules : rules.Perm rules')
    (d : DesiredRule) :
    surviving? key first rules d = surviving? key first' rules' d := by
  unfold surviving?
  rw [on?_perm hfirst hnd d, funext (stillThere_perm hrules)]

/-- **The takeovers that are left are the same**, whatever the order of any of
the lists. -/
theorem revalidate_detect_perm (hdesired : desired.Perm desired')
    (hfirst : first.Perm first') (hnd : (first.map RouterRule.slot).Nodup)
    (hrules : rules.Perm rules') :
    (revalidate (detect key desired first) rules).Perm
      (revalidate (detect key desired' first') rules') := by
  rw [revalidate_detect_eq, revalidate_detect_eq,
    List.filterMap_congr fun d _ => surviving?_perm hfirst hnd hrules d]
  exact hdesired.filterMap _

theorem slots_revalidate_detect_nodup (hnd : (desired.map DesiredRule.slot).Nodup) :
    ((revalidate (detect key desired first) rules).map Operation.slot).Nodup := by
  rw [revalidate_detect_eq]
  refine slots_filterMap_nodup (fun d op h => ?_) hnd
  obtain ⟨e, rfl, -, -, -⟩ := surviving?_eq_some h
  rfl

end Takeover

/-! ## Steps -/

namespace Adjustment

theorem slot_of_deleteOwned? {r : RouterRule} {op : Operation} {reason : Reason}
    (h : Operation.deleteOwned? r reason = some op) : op.slot = r.slot := by
  unfold Operation.deleteOwned? DesiredRule.ofRouterRule? at h
  rw [Option.map_map] at h
  obtain ⟨o, -, rfl⟩ := Option.map_eq_some_iff.mp h
  rfl

theorem slot_of_step? {op : Operation} (h : step? owned claimed d = some op) :
    op.slot = d.slot := by
  unfold step? at h
  split at h
  · obtain ⟨-, hop⟩ := Option.ite_none_left_eq_some.mp h
    rw [← Option.some.inj hop]
    rfl
  · obtain ⟨-, hop⟩ := Option.ite_none_left_eq_some.mp h
    rw [← Option.some.inj hop]
    rfl

theorem step?_perm (howned : owned.Perm owned')
    (hnd : (owned.map RouterRule.slot).Nodup) (hclaimed : claimed.Perm claimed')
    (d : DesiredRule) : step? owned claimed d = step? owned' claimed' d := by
  unfold step?
  rw [find?_slot_perm d.slot howned hnd fun r hr => by simpa using hr,
    hclaimed.contains_eq]

theorem firsts_perm_self (hnd : (owned.map RouterRule.slot).Nodup) :
    (firsts [] owned).Perm owned := by
  have hperm := firsts_perm [] owned
  rw [duplicates_eq_nil hnd fun _ _ => List.not_mem_nil, List.append_nil] at hperm
  exact hperm

theorem stale_perm (howned : owned.Perm owned')
    (hnd : (owned.map RouterRule.slot).Nodup) (hdesired : desired.Perm desired') :
    (stale owned desired).Perm (stale owned' desired') := by
  have hnd' := (howned.map RouterRule.slot).nodup_iff.mp hnd
  unfold stale
  rw [List.filter_congr fun r _ => congrArg not hdesired.any_eq]
  exact ((firsts_perm_self hnd).trans
    (howned.trans (firsts_perm_self hnd').symm)).filter _

theorem compute_perm_of_perm (howned : owned.Perm owned')
    (hnd : (owned.map RouterRule.slot).Nodup) (hdesired : desired.Perm desired')
    (hslots : (desired.map DesiredRule.slot).Nodup)
    (hclaimed : claimed.Perm claimed') :
    (compute owned desired claimed).Perm (compute owned' desired' claimed') := by
  have hnd' := (howned.map RouterRule.slot).nodup_iff.mp hnd
  have hslots' := (hdesired.map DesiredRule.slot).nodup_iff.mp hslots
  have hparts := compute_perm owned claimed hslots
  have hparts' := compute_perm owned' claimed' hslots'
  rw [duplicates_eq_nil hnd fun _ _ => List.not_mem_nil] at hparts
  rw [duplicates_eq_nil hnd' fun _ _ => List.not_mem_nil] at hparts'
  refine hparts.trans (List.Perm.trans (List.Perm.append ?_ ?_) hparts'.symm)
  · exact (stale_perm howned hnd hdesired).filterMap _
  · rw [List.filterMap_congr fun d _ => step?_perm howned hnd hclaimed d]
    exact hdesired.filterMap _

/-- **Of the steps there is one on a slot**: a deletion only where nothing
is wanted. -/
theorem slots_compute_nodup (claimed : List Slot)
    (hnd : (owned.map RouterRule.slot).Nodup)
    (hslots : (desired.map DesiredRule.slot).Nodup) :
    ((compute owned desired claimed).map Operation.slot).Nodup := by
  have hparts := compute_perm owned claimed hslots
  rw [duplicates_eq_nil hnd fun _ _ => List.not_mem_nil, List.nil_append] at hparts
  rw [(hparts.map Operation.slot).nodup_iff, List.map_append, List.nodup_append]
  have hstale : ((stale owned desired).map RouterRule.slot).Nodup :=
    firsts_slots_nodup.sublist (List.filter_sublist.map _)
  refine ⟨slots_filterMap_nodup (fun r op => slot_of_deleteOwned?) hstale,
    slots_filterMap_nodup (fun d op => slot_of_step?) hslots, ?_⟩
  rintro slot hdeleted slot' hstep rfl
  obtain ⟨op, hop, hslot⟩ := List.mem_map.mp hdeleted
  obtain ⟨r, hr, hdelete⟩ := List.mem_filterMap.mp hop
  obtain ⟨op', hop', hslot'⟩ := List.mem_map.mp hstep
  obtain ⟨d, hd, hbrings⟩ := List.mem_filterMap.mp hop'
  have hunwanted := (List.mem_filter.mp hr).2
  have hsame : d.slot = r.slot := by
    rw [← slot_of_step? hbrings, ← slot_of_deleteOwned? hdelete, hslot, hslot']
  rw [Bool.not_eq_true', List.any_eq_false] at hunwanted
  exact hunwanted d hd (beq_iff_eq.mpr hsame)

end Adjustment

/-! ## The plan -/

open Takeover Adjustment Operation in
/-- **A plan does not depend on the order in which rules are listed.** Let the
rules of either listing, and those that are wanted, be on different slots. In any
other order of the three lists the plan has the same operations in the same order,
each on the same target and for the same reason. This holds for one listing as for
two that differ. -/
theorem planFor_reordered (hdesired : desired.Perm desired')
    (hslots : (desired.map DesiredRule.slot).Nodup) (hfirst : first.Perm first')
    (hfirstSlots : (first.map RouterRule.slot).Nodup) (hrules : rules.Perm rules')
    (hrulesSlots : (rules.map RouterRule.slot).Nodup) :
    planFor key desired' rules' (revalidate (detect key desired' first') rules') =
      planFor key desired rules (revalidate (detect key desired first) rules) := by
  have htakeovers : (revalidate (detect key desired first) rules).Perm
      (revalidate (detect key desired' first') rules') :=
    revalidate_detect_perm hdesired hfirst hfirstSlots hrules
  have howned : (ownedRules key rules).Perm (ownedRules key rules') := hrules.filter _
  have hownedSlots : ((ownedRules key rules).map RouterRule.slot).Nodup :=
    hrulesSlots.sublist (List.filter_sublist.map _)
  have hsteps := compute_perm_of_perm howned hownedSlots hdesired hslots
    (htakeovers.map Operation.slot)
  unfold planFor
  exact (sequence_append_perm htakeovers (slots_revalidate_detect_nodup hslots) hsteps
    (slots_compute_nodup _ hownedSlots hslots)).symm

end

/-! ## Lists in other orders -/

namespace Sample

/-- A rule that was typed in by hand on a wanted slot, an owned rule that was
changed since, one that is wanted on another slot, and a rule that is none of the
Service's business. -/
def apart : List RouterRule :=
  [found,
    ⟨"b", { (wish "https" 443 8443).spec with enabled := false }⟩,
    ⟨"d", (wish "admin" 9000 9000).spec⟩,
    ⟨"e", { (wish "vpn" 1194 1194).spec with name := "vpn" }⟩]

end Sample

open Takeover Sample in
theorem planFor_reordered_apart :
    let plan := fun desired first rules =>
      planFor key desired rules (revalidate (detect key desired first) rules)
    (plan desired apart apart).length = 4 ∧
    plan desired.reverse apart.reverse apart.reverse = plan desired apart apart ∧
    plan desired.reverse earlier.reverse apart.reverse = plan desired earlier apart := by
  refine ⟨?_, ?_, ?_⟩
  · exact (planFor_perm_takeovers key apart _ (by decide)).length_eq.trans
      (by decide +kernel)
  · exact planFor_reordered (List.reverse_perm _).symm (by decide)
      (List.reverse_perm _).symm
      (by decide) (List.reverse_perm _).symm (by decide)
  · exact planFor_reordered (List.reverse_perm _).symm (by decide)
      (List.reverse_perm _).symm
      (by decide) (List.reverse_perm _).symm (by decide)

end PortForwarding
