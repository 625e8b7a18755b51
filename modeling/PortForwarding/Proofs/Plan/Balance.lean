import PortForwarding.Plan.Operation
import PortForwarding.Proofs.Listing

/-!
# What a plan takes and what it gives

A plan is *grounded* in a list of rules if every overwriting and every deletion
addresses a rule of that list and no rule is addressed twice. Such a plan can be
accounted for without looking at the order of its operations: the rules before it
and what it brings are, as multisets, the rules after it and what it removes.
`specs_apply_perm` says so of one operation and of configurations only,
`applyAll_perm` of a whole plan and with identifiers.

The order in which the operations are carried out is looked at last
(`sequence_ordered`).
-/

namespace PortForwarding

open Listing

namespace Operation

def target? (op : Operation) : Option RouterRule :=
  match op.kind with
  | .create => none
  | _ => op.existing

def deleted? (op : Operation) : Option RouterRule :=
  match op.kind with
  | .delete => op.existing
  | _ => none

/-- The rule that the operation overwrites, with the rule that is wanted in
its place. -/
def rewrite? (op : Operation) : Option (RouterRule × DesiredRule) :=
  match op.kind with
  | .update => op.existing.map fun e => (e, op.rule)
  | _ => none

def creation? (op : Operation) : Option DesiredRule :=
  match op.kind with
  | .create => some op.rule
  | _ => none

def taken (op : Operation) : List RuleSpec :=
  specs op.target?.toList

def given (op : Operation) : List RuleSpec :=
  match op.kind with
  | .delete => []
  | _ => [op.rule.spec]

def IsGrounded (rules : List RouterRule) (op : Operation) : Prop :=
  op.kind ≠ .create → ∃ e ∈ rules, op.existing = some e

variable {op : Operation} {rules : List RouterRule} {e r : RouterRule} {id : String}

/-! ## One operation -/

theorem apply_of_create (h : op.kind = .create) :
    op.apply id rules = rules ++ [⟨id, op.rule.spec⟩] := by
  unfold apply
  rw [h]

theorem apply_of_update (h : op.kind = .update) (he : op.existing = some e) :
    op.apply id rules = overwrite e.id op.rule.spec rules := by
  unfold apply
  rw [h, he]
  rfl

theorem apply_of_delete (h : op.kind = .delete) (he : op.existing = some e) :
    op.apply id rules = without e.id rules := by
  unfold apply
  rw [h, he]
  rfl

theorem target?_eq_existing (h : op.kind ≠ .create) : op.target? = op.existing := by
  unfold target?
  cases hk : op.kind with
  | create => exact absurd hk h
  | update | delete => rfl

theorem deleted?_eq_some :
    op.deleted? = some r ↔ op.kind = .delete ∧ op.existing = some r := by
  unfold deleted?
  cases hk : op.kind <;> simp

theorem rewrite?_eq_some {w : RouterRule × DesiredRule} : op.rewrite? = some w ↔
    op.kind = .update ∧ op.existing = some w.1 ∧ op.rule = w.2 := by
  unfold rewrite?
  cases hk : op.kind <;> simp [Prod.ext_iff, and_comm]

theorem creation?_eq_some {d : DesiredRule} :
    op.creation? = some d ↔ op.kind = .create ∧ op.rule = d := by
  unfold creation?
  cases hk : op.kind <;> simp

theorem IsGrounded.cases (h : op.IsGrounded rules) :
    op.kind = .create ∨ ∃ e ∈ rules, op.existing = some e ∧
      (op.kind = .update ∨ op.kind = .delete) := by
  cases hk : op.kind with
  | create => exact Or.inl rfl
  | update =>
      obtain ⟨e, he, hex⟩ := h (by simp [hk])
      exact Or.inr ⟨e, he, hex, Or.inl rfl⟩
  | delete =>
      obtain ⟨e, he, hex⟩ := h (by simp [hk])
      exact Or.inr ⟨e, he, hex, Or.inr rfl⟩

/-- **One operation balances.** The configurations before it and what it brings
are the configurations after it and what it takes away. -/
theorem specs_apply_perm (id : String) (hnd : (ids rules).Nodup)
    (h : op.IsGrounded rules) :
    (specs (op.apply id rules) ++ op.taken).Perm (specs rules ++ op.given) := by
  rcases h.cases with hk | ⟨e, he, hex, hk | hk⟩
  · rw [apply_of_create hk]
    simp [taken, given, target?, hk, specs]
  · rw [apply_of_update hk hex]
    simpa [taken, given, target?, hk, hex, specs] using
      (overwrite_perm op.rule.spec hnd he).map RouterRule.spec
  · rw [apply_of_delete hk hex]
    simpa [taken, given, target?, hk, hex, specs] using
      (without_perm hnd he).map RouterRule.spec

theorem nodup_ids_apply (hnd : (ids rules).Nodup) (h : op.IsGrounded rules)
    (hid : id ∉ ids rules) : (ids (op.apply id rules)).Nodup := by
  rcases h.cases with hk | ⟨e, he, hex, hk | hk⟩
  · rw [apply_of_create hk]
    unfold ids at hnd hid ⊢
    rw [List.map_append, List.nodup_append]
    refine ⟨hnd, by simp, ?_⟩
    intro a ha b hb
    obtain rfl : b = id := by simpa using hb
    rintro rfl
    exact hid ha
  · rw [apply_of_update hk hex, ids_overwrite]
    exact hnd
  · rw [apply_of_delete hk hex]
    exact hnd.sublist ids_without_sublist

theorem mem_apply_of_ne (h : op.IsGrounded rules) (hr : r ∈ rules)
    (hne : ∀ e, op.target? = some e → r.id ≠ e.id) : r ∈ op.apply id rules := by
  rcases h.cases with hk | ⟨e, he, hex, hk | hk⟩
  · rw [apply_of_create hk]
    exact List.mem_append_left _ hr
  · rw [apply_of_update hk hex]
    exact mem_overwrite_of_ne hr (hne e (by simp [target?, hk, hex]))
  · rw [apply_of_delete hk hex]
    exact mem_without.mpr ⟨hr, hne e (by simp [target?, hk, hex])⟩

/-- Rules with settings that the operation neither takes nor brings stay as
they are. -/
theorem filter_apply {p : RuleSpec → Bool} (hnd : (ids rules).Nodup)
    (h : op.IsGrounded rules)
    (hp : ∀ spec ∈ op.taken ++ op.given, p spec = false) :
    ((op.apply id rules).filter fun r => p r.spec) = rules.filter fun r =>
      p r.spec := by
  rcases h.cases with hk | ⟨e, he, hex, hk | hk⟩
  · have hgiven : p op.rule.spec = false := hp _ (by simp [given, hk])
    rw [apply_of_create hk, List.filter_append]
    simp [hgiven]
  · have htaken : p e.spec = false := hp _ (by simp [taken, target?, specs, hk, hex])
    have hgiven : p op.rule.spec = false := hp _ (by simp [given, hk])
    rw [apply_of_update hk hex]
    obtain ⟨before, after, rfl, hbefore, hafter⟩ := split_of_mem hnd he
    have hb := overwrite_eq_self op.rule.spec hbefore
    have ha := overwrite_eq_self op.rule.spec hafter
    unfold overwrite at hb ha ⊢
    rw [List.map_append, List.map_cons, hb, ha, List.filter_append, List.filter_append]
    simp [htaken, hgiven]
  · have htaken : p e.spec = false := hp _ (by simp [taken, target?, specs, hk, hex])
    rw [apply_of_delete hk hex]
    unfold without
    rw [List.filter_filter]
    refine List.filter_congr fun r hr => ?_
    by_cases hid : r.id = e.id
    · obtain rfl := eq_of_id_eq hnd hr he hid
      simp [htaken]
    · simp [hid]

end Operation

namespace Plan

open Operation

/-! ## The parts of a plan -/

def targets (plan : List Operation) : List RouterRule :=
  plan.filterMap target?

def deletions (plan : List Operation) : List RouterRule :=
  plan.filterMap deleted?

/-- The rules that a plan overwrites, each with what is wanted in its place. -/
def rewrites (plan : List Operation) : List (RouterRule × DesiredRule) :=
  plan.filterMap rewrite?

def creations (plan : List Operation) : List DesiredRule :=
  plan.filterMap creation?

def rewritten (w : RouterRule × DesiredRule) : RouterRule :=
  ⟨w.1.id, w.2.spec⟩

/-- The plan addresses rules of this list only, and none of them twice. -/
structure Grounded (rules : List RouterRule) (plan : List Operation) : Prop where
  each : ∀ op ∈ plan, op.IsGrounded rules
  apart : (ids (targets plan)).Nodup

/-- Identifiers for the rules to come: new ones, and never the same twice. -/
structure Fresh (fresh : Nat → String) (start : Nat) (rules : List RouterRule) :
    Prop where
  injective : Function.Injective fresh
  unused : ∀ n, start ≤ n → fresh n ∉ ids rules

variable {fresh : Nat → String} {start : Nat} {rules : List RouterRule}
  {op : Operation} {plan : List Operation}

theorem Fresh.apply (h : Fresh fresh start rules) (hop : op.IsGrounded rules) :
    Fresh fresh (start + 1) (op.apply (fresh start) rules) := by
  refine ⟨h.injective, fun n hn => ?_⟩
  have hold : fresh n ∉ ids rules := h.unused n (by omega)
  rcases hop.cases with hk | ⟨e, he, hex, hk | hk⟩
  · rw [apply_of_create hk]
    have hne : fresh n ≠ fresh start := fun heq => by
      have := h.injective heq
      omega
    simpa [ids, hne] using hold
  · rw [apply_of_update hk hex, ids_overwrite]
    exact hold
  · rw [apply_of_delete hk hex]
    exact fun hmem => hold (ids_without_sublist.subset hmem)

/-- What is left of a grounded plan is grounded in what its first
operation leaves. -/
theorem Grounded.tail {id : String} (h : Grounded rules (op :: plan)) :
    Grounded (op.apply id rules) plan := by
  have happart := h.apart
  have hop := h.each op List.mem_cons_self
  refine ⟨fun o ho hk => ?_, ?_⟩
  · obtain ⟨e, he, hex⟩ := h.each o (List.mem_cons_of_mem _ ho) hk
    -- the first operation can only miss it, as no identifier is addressed twice
    refine ⟨e, mem_apply_of_ne hop he fun e' he' heq => ?_, hex⟩
    have hmem : e ∈ targets plan :=
      List.mem_filterMap.mpr ⟨o, ho, (target?_eq_existing hk).trans hex⟩
    unfold ids targets at happart
    rw [List.filterMap_cons_some he', List.map_cons, List.nodup_cons] at happart
    exact happart.1 (heq ▸ List.mem_map_of_mem hmem)
  · exact happart.sublist (((List.sublist_cons_self op plan).filterMap _).map _)

theorem nodup_ids_applyAll (hnd : (ids rules).Nodup) (hplan : Grounded rules plan)
    (hfresh : Fresh fresh start rules) :
    (ids (applyAll fresh start rules plan)).Nodup := by
  induction plan generalizing rules start with
  | nil => exact hnd
  | cons op plan ih =>
      have hop := hplan.each op List.mem_cons_self
      exact ih (nodup_ids_apply hnd hop (hfresh.unused start (Nat.le_refl _))) hplan.tail
        (hfresh.apply hop)

/-- **A plan balances in its configurations.** -/
theorem specs_applyAll_perm (hnd : (ids rules).Nodup) (hplan : Grounded rules plan)
    (hfresh : Fresh fresh start rules) :
    (specs (applyAll fresh start rules plan) ++ plan.flatMap taken).Perm
      (specs rules ++ plan.flatMap given) := by
  induction plan generalizing rules start with
  | nil => simp [applyAll]
  | cons op plan ih =>
      have hop := hplan.each op List.mem_cons_self
      have hhead := specs_apply_perm (fresh start) hnd hop
      have htail :=
        ih (nodup_ids_apply hnd hop (hfresh.unused start (Nat.le_refl _)))
        hplan.tail (hfresh.apply hop)
      rw [List.perm_iff_count] at hhead htail ⊢
      intro c
      have h₁ := hhead c
      have h₂ := htail c
      simp only [applyAll, List.flatMap_cons, List.count_append] at h₁ h₂ ⊢
      omega

/-- **A plan balances.** The rules before it, the overwritten rules as they became
and the created rules are the rules after it, the deleted rules and the
overwritten ones as they were. The created rules have the configurations that were
asked for and new identifiers. -/
theorem applyAll_perm (hnd : (ids rules).Nodup) (hplan : Grounded rules plan)
    (hfresh : Fresh fresh start rules) :
    ∃ created : List RouterRule,
      specs created = (creations plan).map DesiredRule.spec ∧
      (∀ r ∈ created, ∃ n, start ≤ n ∧ r.id = fresh n) ∧
      (applyAll fresh start rules plan ++
          (deletions plan ++ (rewrites plan).map Prod.fst)).Perm
        (rules ++ ((rewrites plan).map rewritten ++ created)) := by
  induction plan generalizing rules start with
  | nil => exact ⟨[], rfl, by simp, by simp [applyAll, deletions, rewrites]⟩
  | cons op plan ih =>
      have hop := hplan.each op List.mem_cons_self
      obtain ⟨created, hspecs, hids, hperm⟩ :=
        ih (nodup_ids_apply hnd hop (hfresh.unused start (Nat.le_refl _))) hplan.tail
          (hfresh.apply hop)
      have hlater : ∀ r ∈ created, ∃ n, start ≤ n ∧ r.id = fresh n := by
        intro r hr
        obtain ⟨n, hn, hid⟩ := hids r hr
        exact ⟨n, by omega, hid⟩
      -- multisets are compared by counting, so that the order of the parts is no
      -- matter
      rw [List.perm_iff_count] at hperm
      rcases hop.cases with hk | ⟨e, he, hex, hk | hk⟩
      · refine ⟨⟨fresh start, op.rule.spec⟩ :: created, ?_, ?_, ?_⟩
        · simpa [creations, creation?, hk, specs] using hspecs
        · intro r hr
          rcases List.mem_cons.mp hr with rfl | hr
          · exact ⟨start, Nat.le_refl _, rfl⟩
          · exact hlater r hr
        · rw [List.perm_iff_count]
          intro c
          have h₁ := hperm c
          rw [apply_of_create hk] at h₁
          simp only [applyAll, apply_of_create hk, deletions, rewrites,
            List.filterMap_cons, deleted?, rewrite?, hk, List.count_append,
            List.count_cons, List.count_nil] at h₁ ⊢
          omega
      · refine ⟨created, ?_, hlater, ?_⟩
        · simpa [creations, creation?, hk] using hspecs
        · rw [List.perm_iff_count]
          intro c
          have h₁ := hperm c
          have h₂ := (overwrite_perm op.rule.spec hnd he).count_eq c
          rw [apply_of_update hk hex] at h₁
          simp only [applyAll, apply_of_update hk hex, deletions, rewrites,
            List.filterMap_cons, deleted?, rewrite?, hk, hex, Option.map_some,
            List.map_cons, rewritten, List.count_append, List.count_cons,
            List.count_nil] at h₁ h₂ ⊢
          omega
      · refine ⟨created, ?_, hlater, ?_⟩
        · simpa [creations, creation?, hk] using hspecs
        · rw [List.perm_iff_count]
          intro c
          have h₁ := hperm c
          have h₂ := (without_perm hnd he).count_eq c
          rw [apply_of_delete hk hex] at h₁
          simp only [applyAll, apply_of_delete hk hex, deletions, rewrites,
            List.filterMap_cons, deleted?, rewrite?, hk, hex, List.count_append,
            List.count_cons, List.count_nil] at h₁ h₂ ⊢
          omega

end Plan

/-! ## The order of execution -/

namespace Operation

def order : Operation → Operation → Ordering :=
  compareLex (compareOn fun op => op.kind.rank)
    (compareLex (compareOn fun op => op.slot.external.toNat)
      (compareLex (compareOn fun op => op.slot.internal.toNat)
        (compareOn fun op => op.slot.protocol.rank)))

instance : Std.TransCmp order :=
  inferInstanceAs (Std.TransCmp (compareLex _ (compareLex _ (compareLex _ _))))

theorem before_eq (a b : Operation) : a.before b = (order a b).isLE :=
  rfl

theorem before_trans (a b c : Operation) (h : a.before b = true)
    (h' : b.before c = true) : a.before c = true := by
  rw [before_eq] at h h' ⊢
  exact Std.TransCmp.isLE_trans h h'

theorem before_total (a b : Operation) : (a.before b || b.before a) = true := by
  have hswap : order b a = (order a b).swap := Std.OrientedCmp.eq_swap
  rw [before_eq, before_eq, hswap]
  cases order a b <;> rfl

theorem sequence_sorted (ops : List Operation) :
    (sequence ops).Pairwise fun a b => a.before b = true :=
  List.pairwise_mergeSort before_trans before_total ops

/-- Where no two operations are equals, there is one order of execution. -/
theorem sequence_eq {ops sorted : List Operation} (hperm : ops.Perm sorted)
    (hsorted : sorted.Pairwise fun a b => b.before a = false) :
    sequence ops = sorted := by
  have hbefore : sorted.Pairwise fun a b => a.before b = true := by
    refine hsorted.imp fun {a b} h => ?_
    have htotal := before_total a b
    rw [h, Bool.or_false] at htotal
    exact htotal
  have hequals : ∀ a ∈ sorted, ∀ b ∈ sorted, a.before b = true →
      b.before a = true → a = b := by
    have hnever : ∀ {a b : Operation}, b.before a = false → b.before a = true → a = b :=
      fun h h' => absurd (h.symm.trans h') Bool.noConfusion
    intro a ha b hb
    apply List.Pairwise.forall_of_forall_of_flip
      (R := fun a b : Operation => a.before b = true → b.before a = true →
        a = b) _ _ _ ha hb
    · exact fun _ _ _ _ => rfl
    · exact hsorted.imp (S := fun a b => a.before b = true → b.before a = true → a = b)
        fun h _ h' => hnever h h'
    · exact hsorted.imp (S := fun a b => b.before a = true → a.before b = true → b = a)
        fun h h' _ => (hnever h h').symm
  have hpermuted : (sequence ops).Perm sorted :=
    (List.mergeSort_perm ops before).trans hperm
  refine List.Perm.eq_of_pairwise (fun a b ha hb => ?_) (sequence_sorted ops)
    hbefore hpermuted
  exact hequals a (hpermuted.subset ha) b hb

theorem rank_le_of_before {a b : Operation} (h : a.before b = true) :
    a.kind.rank ≤ b.kind.rank := by
  unfold before at h
  cases hrank : Ord.compare a.kind.rank b.kind.rank with
  | lt => exact Nat.le_of_lt (Nat.compare_eq_lt.mp hrank)
  | eq => exact Nat.le_of_eq (Nat.compare_eq_eq.mp hrank)
  | gt =>
      rw [hrank] at h
      exact absurd h (by simp)

/-- **Deletions come first and creations last.** -/
theorem sequence_ordered (ops : List Operation) :
    (sequence ops).Pairwise fun a b => a.kind.rank ≤ b.kind.rank :=
  (sequence_sorted ops).imp rank_le_of_before

end Operation

end PortForwarding
