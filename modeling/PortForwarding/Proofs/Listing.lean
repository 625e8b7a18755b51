import Mathlib.Data.List.Nodup
import PortForwarding.Rule

/-!
# Lists of rules under identifiers

A router's rules are a list in which no identifier comes twice. Overwriting a rule
and taking one out leave all others alone; as multisets the lists before and after
differ by the rule that was addressed and no other (`overwrite_perm`,
`without_perm`).
-/

namespace PortForwarding.Listing

def ids (rules : List RouterRule) : List String :=
  rules.map RouterRule.id

def specs (rules : List RouterRule) : List RuleSpec :=
  rules.map RouterRule.spec

def overwrite (id : String) (spec : RuleSpec) (rules : List RouterRule) :
    List RouterRule :=
  rules.map fun r => if r.id = id then { r with spec := spec } else r

def without (id : String) (rules : List RouterRule) : List RouterRule :=
  rules.filter fun r => decide (r.id ≠ id)

variable {rules : List RouterRule} {e r : RouterRule} {id : String} {spec : RuleSpec}

theorem mem_ids_of_mem (h : r ∈ rules) : r.id ∈ ids rules :=
  List.mem_map_of_mem h

theorem eq_of_id_eq (hnd : (ids rules).Nodup) (he : e ∈ rules) (hr : r ∈ rules)
    (h : e.id = r.id) : e = r :=
  List.inj_on_of_nodup_map hnd he hr h

@[simp] theorem ids_overwrite : ids (overwrite id spec rules) = ids rules := by
  unfold ids overwrite
  rw [List.map_map]
  apply List.map_congr_left
  intro r _
  by_cases h : r.id = id <;> simp [h]

theorem ids_without_sublist : (ids (without id rules)).Sublist (ids rules) :=
  List.filter_sublist.map _

theorem mem_without : r ∈ without id rules ↔ r ∈ rules ∧ r.id ≠ id := by
  simp [without]

theorem mem_overwrite_of_ne (h : r ∈ rules) (hne : r.id ≠ id) :
    r ∈ overwrite id spec rules :=
  List.mem_map.mpr ⟨r, h, by simp [hne]⟩

theorem mem_overwrite_self (spec : RuleSpec) (h : r ∈ rules) :
    ⟨r.id, spec⟩ ∈ overwrite r.id spec rules :=
  List.mem_map.mpr ⟨r, h, by simp⟩

theorem split_of_mem (hnd : (ids rules).Nodup) (he : e ∈ rules) :
    ∃ before after, rules = before ++ e :: after ∧
      (∀ r ∈ before, r.id ≠ e.id) ∧ ∀ r ∈ after, r.id ≠ e.id := by
  obtain ⟨before, after, rfl⟩ := List.append_of_mem he
  unfold ids at hnd
  rw [List.map_append, List.map_cons, List.nodup_append, List.nodup_cons] at hnd
  refine ⟨before, after, rfl, ?_, ?_⟩
  · intro r hr
    exact hnd.2.2 r.id (List.mem_map_of_mem hr) e.id List.mem_cons_self
  · intro r hr h
    exact hnd.2.1.1 (h ▸ List.mem_map_of_mem hr)

theorem overwrite_eq_self (spec : RuleSpec) (h : ∀ r ∈ rules, r.id ≠ id) :
    overwrite id spec rules = rules := by
  unfold overwrite
  conv_rhs => rw [← List.map_id rules]
  apply List.map_congr_left
  intro r hr
  simp [h r hr]

theorem without_eq_self (h : ∀ r ∈ rules, r.id ≠ id) : without id rules = rules :=
  List.filter_eq_self.mpr fun r hr => by simp [h r hr]

/-- **Overwriting exchanges one rule for one rule.** -/
theorem overwrite_perm (spec : RuleSpec) (hnd : (ids rules).Nodup) (he : e ∈ rules) :
    (overwrite e.id spec rules ++ [e]).Perm (rules ++ [⟨e.id, spec⟩]) := by
  obtain ⟨before, after, rfl, hbefore, hafter⟩ := split_of_mem hnd he
  have heq : overwrite e.id spec (before ++ e :: after) =
      before ++ ⟨e.id, spec⟩ :: after := by
    have hb := overwrite_eq_self spec hbefore
    have ha := overwrite_eq_self spec hafter
    unfold overwrite at hb ha ⊢
    rw [List.map_append, List.map_cons, hb, ha]
    simp
  rw [heq]
  apply List.perm_iff_count.mpr
  intro r
  simp only [List.count_append, List.count_cons, List.count_nil]
  omega

/-- **Taking a rule out takes out that rule.** -/
theorem without_perm (hnd : (ids rules).Nodup) (he : e ∈ rules) :
    (without e.id rules ++ [e]).Perm rules := by
  obtain ⟨before, after, rfl, hbefore, hafter⟩ := split_of_mem hnd he
  have heq : without e.id (before ++ e :: after) = before ++ after := by
    have hb := without_eq_self hbefore
    have ha := without_eq_self hafter
    unfold without at hb ha ⊢
    rw [List.filter_append, List.filter_cons_of_neg (by simp), hb, ha]
  rw [heq]
  apply List.perm_iff_count.mpr
  intro r
  simp only [List.count_append, List.count_cons, List.count_nil]
  omega

theorem perm_cons_without (hnd : (ids rules).Nodup) (he : e ∈ rules) :
    rules.Perm (e :: without e.id rules) :=
  (List.perm_append_comm.trans (without_perm hnd he)).symm

end PortForwarding.Listing
