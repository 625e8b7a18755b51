import PortForwarding.Proofs.Plan.Progress

/-!
# What fades of an operation

Somebody else may take rules from the router that a plan has written. What there
is to undo of an operation then fades (`Completed.faded?`): of a creation nothing
is left, and of an overwriting as much as of a deletion. The operations as they
have faded balance with the rules that are there, as they did before
(`Placed.vanish`).
-/

namespace PortForwarding

open Listing Operation

/-! ## Rules that are gone -/

namespace Listing

variable {rules : List RouterRule} {gone : List String} {r : RouterRule} {id : String}

def withoutAll (gone : List String) (rules : List RouterRule) : List RouterRule :=
  rules.filter fun r => decide (r.id ∉ gone)

theorem mem_withoutAll : r ∈ withoutAll gone rules ↔ r ∈ rules ∧ r.id ∉ gone := by
  simp [withoutAll]

theorem mem_ids_withoutAll :
    id ∈ ids (withoutAll gone rules) ↔ id ∈ ids rules ∧ id ∉ gone := by
  constructor
  · intro h
    obtain ⟨r, hr, rfl⟩ := List.mem_map.mp h
    obtain ⟨hmem, hgone⟩ := mem_withoutAll.mp hr
    exact ⟨mem_ids_of_mem hmem, hgone⟩
  · rintro ⟨h, hgone⟩
    obtain ⟨r, hr, rfl⟩ := List.mem_map.mp h
    exact mem_ids_of_mem (mem_withoutAll.mpr ⟨hr, hgone⟩)

theorem withoutAll_perm (gone : List String) (rules : List RouterRule) :
    (withoutAll gone rules ++ rules.filter fun r => decide (r.id ∈ gone)).Perm
      rules := by
  have hsplit := List.filter_append_perm (fun r : RouterRule =>
    decide (r.id ∉ gone)) rules
  have hrest : (rules.filter fun r => !decide (r.id ∉ gone)) =
      rules.filter fun r => decide (r.id ∈ gone) :=
    List.filter_congr fun r _ => by simp
  rwa [hrest] at hsplit

end Listing

/-! ## What is left to undo -/

namespace Completed

/-- The rule that the operation has left is there. An operation that has left none
misses none. -/
def stays (rules : List RouterRule) (c : Completed) : Bool :=
  c.left?.all fun r => decide (r.id ∈ ids rules)

/-- What is left to undo of an operation after its rule was taken. -/
def vanished? (c : Completed) : Option Completed :=
  match c.operation.kind, c.operation.existing with
  | .update, some before =>
    some { c with operation := .delete c.operation.rule before c.operation.reason }
  | _, _ => none

/-- What is left to undo of an operation, going by the rules that are there. -/
def faded? (rules : List RouterRule) (c : Completed) : Option Completed :=
  if c.stays rules then some c else c.vanished?

def faded (rules : List RouterRule) (done : List Completed) : List Completed :=
  done.filterMap (faded? rules)

def lefts (done : List Completed) : List RouterRule :=
  done.filterMap left?

variable {rules rules' : List RouterRule} {done : List Completed} {c d : Completed}
  {r before : RouterRule}

theorem faded?_of_mem (hleft : c.left? = some r) (hr : r.id ∈ ids rules) :
    c.faded? rules = some c := by
  simp [faded?, stays, hleft, hr]

theorem faded?_of_deletion (hk : c.operation.kind = .delete) :
    c.faded? rules = some c := by
  simp [faded?, stays, left?, hk]

theorem faded?_of_lost (hleft : c.left? = some r) (hr : r.id ∉ ids rules) :
    c.faded? rules = c.vanished? := by
  simp [faded?, stays, hleft, hr]

theorem vanished?_of_create (hk : c.operation.kind = .create) :
    c.vanished? = none := by
  simp [vanished?, hk]

theorem vanished?_of_update (hk : c.operation.kind = .update)
    (hex : c.operation.existing = some before) :
    c.vanished? =
      some { c with
        operation := .delete c.operation.rule before c.operation.reason } := by
  simp [vanished?, hk, hex]

theorem Faithful.faded_cases (hc : c.Faithful) (rules : List RouterRule) :
    (c.faded? rules = some c ∧ ∀ r, c.left? = some r → r.id ∈ ids rules) ∨
      ∃ r, c.left? = some r ∧ r.id ∉ ids rules ∧
        ((c.operation.kind = .create ∧ c.faded? rules = none) ∨
          ∃ before, c.operation.kind = .update ∧ c.operation.existing = some before ∧
            c.faded? rules =
              some { c with
                operation := .delete c.operation.rule before c.operation.reason }) := by
  rcases hc with ⟨hk, -⟩ | ⟨before, hk, hex, -⟩ | ⟨before, hk, -⟩
  · have hleft : c.left? = some c.applied := by simp [left?, hk]
    by_cases hmem : c.applied.id ∈ ids rules
    · refine Or.inl ⟨faded?_of_mem hleft hmem, fun r hr => ?_⟩
      obtain rfl := Option.some.inj (hleft.symm.trans hr)
      exact hmem
    · exact Or.inr ⟨_, hleft, hmem,
        Or.inl ⟨hk, (faded?_of_lost hleft hmem).trans (vanished?_of_create hk)⟩⟩
  · have hleft : c.left? = some c.applied := by simp [left?, hk]
    by_cases hmem : c.applied.id ∈ ids rules
    · refine Or.inl ⟨faded?_of_mem hleft hmem, fun r hr => ?_⟩
      obtain rfl := Option.some.inj (hleft.symm.trans hr)
      exact hmem
    · exact Or.inr ⟨_, hleft, hmem, Or.inr ⟨before, hk, hex,
        (faded?_of_lost hleft hmem).trans (vanished?_of_update hk hex)⟩⟩
  · exact Or.inl ⟨faded?_of_deletion hk, fun r hr => absurd hr (by simp [left?, hk])⟩

theorem Faithful.given_eq (hc : c.Faithful) :
    c.operation.given = specs c.left?.toList := by
  rw [← taken_inverse hc]
  unfold taken
  rw [target?_inverse hc]

theorem Faithful.faded (hc : c.Faithful) (hd : c.faded? rules = some d) :
    d.Faithful := by
  rcases hc.faded_cases rules with ⟨heq, -⟩ | ⟨r, -, -, ⟨-, heq⟩ | ⟨before, -, -, heq⟩⟩
  · exact Option.some.inj (heq.symm.trans hd) ▸ hc
  · exact absurd (heq.symm.trans hd) (by simp)
  · exact Option.some.inj (heq.symm.trans hd) ▸ .deleted before rfl rfl

theorem Faithful.left?_faded (hc : c.Faithful) :
    (c.faded? rules).bind left? = c.left?.filter fun r =>
      decide (r.id ∈ ids rules) := by
  rcases hc.faded_cases rules with ⟨heq, hall⟩ | ⟨r, hleft, hlost, hrest⟩
  · rw [heq]
    cases hleft : c.left? with
    | none => simp [hleft]
    | some r => simp [hleft, Option.filter_some, hall r hleft]
  · rw [hleft]
    rcases hrest with ⟨-, heq⟩ | ⟨before, -, -, heq⟩
    · simp [heq, Option.filter_some, hlost]
    · simp [heq, Option.filter_some, hlost, left?, delete]

theorem Faithful.taken_faded (hc : c.Faithful) :
    ((c.faded? rules).toList.flatMap fun d => d.operation.taken) =
      c.operation.taken := by
  rcases hc.faded_cases rules with
    ⟨heq, -⟩ | ⟨r, -, -, ⟨hk, heq⟩ | ⟨before, hk, hex, heq⟩⟩
  · simp [heq]
  · simp [heq, taken, target?, hk, specs]
  · simp [heq, taken, target?, hk, hex, delete]

theorem lefts_faded (hdone : ∀ c ∈ done, c.Faithful) :
    lefts (faded rules done) = (lefts done).filter fun r =>
      decide (r.id ∈ ids rules) := by
  unfold lefts faded
  rw [List.filterMap_filterMap, List.filter_filterMap]
  exact List.filterMap_congr fun c hc => (hdone c hc).left?_faded

theorem taken_faded (hdone : ∀ c ∈ done, c.Faithful) :
    ((faded rules done).flatMap fun c => c.operation.taken) =
      done.flatMap fun c => c.operation.taken := by
  unfold faded
  rw [List.filterMap_eq_flatMap_toList, List.flatMap_assoc]
  exact List.flatMap_congr fun c hc => (hdone c hc).taken_faded

theorem given_eq_lefts (hdone : ∀ c ∈ done, c.Faithful) :
    (done.flatMap fun c => c.operation.given) = specs (lefts done) := by
  unfold lefts specs
  rw [List.filterMap_eq_flatMap_toList, List.map_flatMap]
  exact List.flatMap_congr fun c hc => (hdone c hc).given_eq

theorem faded_cons (h : c.faded? rules = some d) :
    faded rules (c :: done) = d :: faded rules done :=
  List.filterMap_cons_some h

theorem faded_cons_none (h : c.faded? rules = none) :
    faded rules (c :: done) = faded rules done :=
  List.filterMap_cons_none h

theorem mem_ids_lefts_cons {id : String} : id ∈ ids (lefts (c :: done)) ↔
    (∃ r, c.left? = some r ∧ r.id = id) ∨ id ∈ ids (lefts done) := by
  unfold lefts ids
  cases h : c.left? <;> simp [h, eq_comm]

/-- Whether operations have faded is known from the rules that they have left. -/
theorem faded_congr (h : ∀ r ∈ lefts done, r.id ∈ ids rules ↔ r.id ∈ ids rules') :
    faded rules done = faded rules' done := by
  refine List.filterMap_congr fun c hc => ?_
  unfold faded? stays
  cases hleft : c.left? with
  | none => rfl
  | some r =>
      have hsame := h r (List.mem_filterMap.mpr ⟨c, hc, hleft⟩)
      simp [hsame]

end Completed

/-! ## Somebody takes rules -/

namespace Plan

section

variable {start : List RouterRule} {done : List Completed} {todo : List Operation}
  {s t : Site} {gone : List String}

/-- Taken rules that operations have left are missing from what is left of
the operations. -/
theorem lefts_perm (hnd : (ids s.rules).Nodup) (hdone : ∀ c ∈ done, c.Faithful)
    (hpresent : ∀ r ∈ Completed.lefts (Completed.faded s.rules done), r ∈ s.rules)
    (hapart : (ids (Completed.lefts (Completed.faded s.rules done))).Nodup)
    (hgone : ∀ id ∈ gone, id ∈ ids s.rules → id ∈ ids (Completed.lefts done)) :
    (Completed.lefts (Completed.faded (withoutAll gone s.rules) done) ++
      s.rules.filter fun r => decide (r.id ∈ gone)).Perm
        (Completed.lefts (Completed.faded s.rules done)) := by
  have hlefts : Completed.lefts (Completed.faded (withoutAll gone s.rules) done) =
      withoutAll gone (Completed.lefts (Completed.faded s.rules done)) := by
    rw [Completed.lefts_faded hdone, Completed.lefts_faded hdone]
    conv_rhs => unfold withoutAll
    rw [List.filter_filter]
    refine List.filter_congr fun r _ => ?_
    simp [mem_ids_withoutAll, and_comm]
  have htaken : ((Completed.lefts (Completed.faded s.rules done)).filter
      fun r => decide (r.id ∈ gone)).Perm (s.rules.filter fun r =>
          decide (r.id ∈ gone)) := by
    rw [List.perm_ext_iff_of_nodup ((List.Nodup.of_map _ hapart).filter _)
      ((List.Nodup.of_map _ hnd).filter _)]
    intro r
    rw [List.mem_filter, List.mem_filter]
    refine ⟨fun ⟨hr, hid⟩ => ⟨hpresent r hr, hid⟩, fun ⟨hr, hid⟩ => ⟨?_, hid⟩⟩
    -- it is a rule that an operation has left, as no two rules have one
    -- identifier
    have hmem := mem_ids_of_mem hr
    obtain ⟨x, hx, hsame⟩ := List.mem_map.mp (hgone r.id (of_decide_eq_true hid) hmem)
    have hleft : x ∈ Completed.lefts (Completed.faded s.rules done) := by
      rw [Completed.lefts_faded hdone, List.mem_filter]
      exact ⟨hx, by simp [hsame, hmem]⟩
    rwa [← eq_of_id_eq hnd (hpresent x hleft) hr hsame]
  rw [hlefts]
  exact (htaken.symm.append_left _).trans (withoutAll_perm gone _)

/-- **Where rules are taken that operations have left**, what is left to undo of
the operations balances as they did. -/
theorem Placed.vanish (hdone : ∀ c ∈ done, c.Faithful)
    (h : Placed start (Completed.faded s.rules done) todo s)
    (hgone : ∀ id ∈ gone, id ∈ ids s.rules → id ∈ ids (Completed.lefts done))
    (hrules : t.rules = withoutAll gone s.rules) (hissued : t.issued = s.issued) :
    Placed start (Completed.faded t.rules done) todo t := by
  have hheld : held (Completed.faded s.rules done) todo =
      Completed.lefts (Completed.faded s.rules done) ++ targets todo := rfl
  have hpresent : ∀ r ∈ Completed.lefts (Completed.faded s.rules done), r ∈ s.rules :=
    fun r hr => h.present r (hheld ▸ List.mem_append_left _ hr)
  have hnd := h.sound.ids_nodup
  have hapart := h.apart
  rw [hheld] at hapart
  unfold ids at hapart
  rw [List.map_append, List.nodup_append] at hapart
  have hperm := lefts_perm hnd hdone hpresent hapart.1 hgone
  rw [← hrules] at hperm
  have hkept : (Completed.lefts (Completed.faded t.rules done)).Sublist
      (Completed.lefts (Completed.faded s.rules done)) := by
    rw [Completed.lefts_faded hdone, Completed.lefts_faded hdone, hrules]
    refine List.monotone_filter_right _ fun r hr => ?_
    simp only [decide_eq_true_eq] at hr ⊢
    exact (mem_ids_withoutAll.mp hr).1
  constructor
  · exact h.sound.of_sublist (by rw [hrules]; exact List.filter_sublist.map _) hissued
  · intro d hd
    obtain ⟨c, hc, hfaded⟩ := List.mem_filterMap.mp hd
    exact (hdone c hc).faded hfaded
  · exact h.targeted
  · intro r hr
    rw [hrules]
    rcases List.mem_append.mp hr with hleft | htarget
    · have hthere : r.id ∈ ids t.rules := by
        have hmem : r ∈ Completed.lefts (Completed.faded t.rules done) := hleft
        rw [Completed.lefts_faded hdone, List.mem_filter] at hmem
        exact of_decide_eq_true hmem.2
      rw [hrules] at hthere
      exact mem_withoutAll.mpr ⟨hpresent r (hkept.subset hleft),
        (mem_ids_withoutAll.mp hthere).2⟩
    -- what is still to be addressed is none of the rules that were written
    · have hmem := h.present r (List.mem_append_right _ htarget)
      refine mem_withoutAll.mpr ⟨hmem, fun hid => ?_⟩
      obtain ⟨x, hx, hsame⟩ := List.mem_map.mp (hgone r.id hid (mem_ids_of_mem hmem))
      have hleft : x ∈ Completed.lefts (Completed.faded s.rules done) := by
        rw [Completed.lefts_faded hdone, List.mem_filter]
        exact ⟨hx, by simp [hsame, mem_ids_of_mem hmem]⟩
      exact hapart.2.2 x.id (List.mem_map_of_mem hleft) r.id
        (List.mem_map_of_mem htarget) hsame
  · exact h.apart.sublist ((hkept.append (List.Sublist.refl _)).map _)
  · have hfaithful : ∀ rules, ∀ d ∈ Completed.faded rules done, d.Faithful := by
      intro rules d hd
      obtain ⟨c, hc, hfaded⟩ := List.mem_filterMap.mp hd
      exact (hdone c hc).faded hfaded
    have hbalance := h.balance
    have hspecs := hperm.map RouterRule.spec
    have hsplit := (withoutAll_perm gone s.rules).map RouterRule.spec
    rw [← hrules] at hsplit
    rw [Completed.taken_faded hdone, Completed.given_eq_lefts (hfaithful _)] at hbalance ⊢
    unfold specs at hbalance ⊢
    rw [List.map_append] at hspecs hsplit
    rw [List.perm_iff_count] at hbalance hspecs hsplit ⊢
    intro x
    have h₁ := hbalance x
    have h₂ := hspecs x
    have h₃ := hsplit x
    simp only [List.count_append] at h₁ h₂ h₃ ⊢
    omega

end

end Plan

end PortForwarding
