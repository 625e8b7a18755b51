import PortForwarding.Proofs.Plan.Adjustment
import PortForwarding.Proofs.Plan.Drift

/-!
# Where the two ways of planning agree

The plan after a change and the correction of drift settle the same wanted rules
against the same listing, but not always with the same hosts. After a change a
wanted rule looks for its host among all owned rules. In the matching the owned
rules run out: one that has moved is taken by the wanted rule whose name it bears,
though it may sit on the slot of a wanted rule whose turn comes later.

- `Settles.specs_perm`: what is on the router after a plan, up to identifiers, is
  what was spared and what is `settled` for each wanted rule.
- `Hosting.settled_perm_iff`: the settled rules are the same where they are slot
  by slot.
- `seized_perm`: the correction takes over all that the plan takes over, and the
  rules on the slots that a turn `seizes`.
- `applyAll_agree_iff`: the routers differ exactly where some turn `Diverges`, and
  every such turn has lost the first owned rule on its slot to a wanted rule of
  that name.
-/

namespace PortForwarding

open Listing Operation Plan

/-! ## Up to identifiers -/

namespace Hosting

/-- What is on the router for a wanted rule once its host has been seen to. -/
def settled : Hosting → RuleSpec
  | (d, some r) => if mismatches d r = [] then r.spec else d.spec
  | (d, none) => d.spec

/-- A wanted rule is settled as wanted, but for the interface, at which no
comparison looks. -/
theorem settled_eq (host : Hosting) :
    settled host = { host.1.spec with interface := (settled host).interface } := by
  rcases host with ⟨d, _ | r⟩
  · rfl
  · by_cases hnil : mismatches d r = []
    · obtain ⟨hslot, hname, hdestination, henabled, hsource⟩ :=
        (mismatches_eq_nil_iff.mp hnil).2
      have hspec : settled (d, some r) = r.spec := if_pos hnil
      have hfields : r.spec = { d.spec with interface := r.spec.interface } := by
        cases hr : r.spec
        simp_all [RouterRule.slot, DesiredRule.slot]
      rw [hspec]
      exact hfields
    · have hspec : settled (d, some r) = d.spec := if_neg hnil
      rw [hspec]

/-- A wanted rule is settled by the host that is kept, by overwriting or
by creation. -/
theorem settled_perm (hosts : List Hosting) :
    (specs (hosts.filterMap kept?) ++
      ((hosts.filterMap rewrite?).map (fun w => w.2.spec) ++
      (hosts.filterMap creation?).map DesiredRule.spec)).Perm
        (hosts.map settled) := by
  rw [List.perm_iff_count]
  intro c
  induction hosts with
  | nil => rfl
  | cons host hosts ih =>
      unfold specs at ih ⊢
      rcases host with ⟨d, _ | r⟩
      · simp only [List.filterMap_cons, kept?, rewrite?, creation?, settled,
          List.map_cons, List.count_append, List.count_cons] at ih ⊢
        omega
      · by_cases h : mismatches d r = []
        · simp only [List.filterMap_cons, kept?, rewrite?, creation?, settled, h, if_true,
            List.map_cons, List.count_append, List.count_cons] at ih ⊢
          omega
        · simp only [List.filterMap_cons, kept?, rewrite?, creation?, settled, h,
            if_false, List.map_cons, List.count_append, List.count_cons] at ih ⊢
          omega

end Hosting

/-- **What the router holds after a plan, up to identifiers.** -/
theorem Plan.Settles.specs_perm {key : ServiceKey} {rules : List RouterRule}
    {hosts : List Hosting} {plan : List Operation} {fresh : Nat → String}
    {start : Nat} (hnd : (ids rules).Nodup) (h : Settles key rules hosts plan)
    (hfresh : Fresh fresh start rules) :
    (specs (applyAll fresh start rules plan)).Perm
      (specs (spared key rules hosts) ++ hosts.map Hosting.settled) := by
  obtain ⟨created, hcreated, hafter⟩ := h.applyAll_perm_parts hnd hfresh
  have hspecs := hafter.map RouterRule.spec
  rw [List.map_append, List.map_append, List.map_append, List.map_map] at hspecs
  refine hspecs.trans (List.Perm.append_left _ ?_)
  exact (List.Perm.append_left _ (List.Perm.append_left _ hcreated)).trans
    (Hosting.settled_perm hosts)

/-- Lists whose two parts a test tells apart are the same up to order where the
parts are. -/
theorem perm_append_iff_of_test {α : Type} {p : α → Bool} {l l' m m' : List α}
    (hl : ∀ a ∈ l, p a = false) (hl' : ∀ a ∈ l', p a = false)
    (hm : ∀ a ∈ m, p a = true) (hm' : ∀ a ∈ m', p a = true) :
    (l ++ m).Perm (l' ++ m') ↔ l.Perm l' ∧ m.Perm m' := by
  have hpart : ∀ {l m : List α}, (∀ a ∈ l, p a = false) → (∀ a ∈ m, p a = true) →
      (l ++ m).filter p = m ∧ (l ++ m).filter (fun a => !p a) = l := by
    intro l m hl hm
    rw [List.filter_append, List.filter_append]
    constructor
    · rw [List.filter_eq_nil_iff.mpr fun a ha => by simp [hl a ha],
        List.filter_eq_self.mpr hm, List.nil_append]
    · rw [List.filter_eq_self.mpr fun a ha => by simp [hl a ha],
        List.filter_eq_nil_iff.mpr fun a ha => by simp [hm a ha], List.append_nil]
  constructor
  · intro h
    have hpos := h.filter p
    have hneg := h.filter fun a => !p a
    rw [(hpart hl hm).1, (hpart hl' hm').1] at hpos
    rw [(hpart hl hm).2, (hpart hl' hm').2] at hneg
    exact ⟨hneg, hpos⟩
  · rintro ⟨h, h'⟩
    exact h.append h'

/-- Two images of one list whose members are told apart by a common key are the
same up to order where they are member by member. -/
theorem map_perm_map_iff {α β γ : Type} {l : List α} {f g : α → β} {k : β → γ}
    (hkey : ∀ a ∈ l, k (f a) = k (g a)) (hnd : (l.map fun a => k (f a)).Nodup) :
    (l.map f).Perm (l.map g) ↔ ∀ a ∈ l, f a = g a := by
  constructor
  · intro h a ha
    obtain ⟨b, hb, heq⟩ := List.mem_map.mp (h.mem_iff.mp (List.mem_map_of_mem ha))
    have hk : k (f b) = k (f a) := (hkey b hb).trans (congrArg k heq)
    obtain rfl : b = a := List.inj_on_of_nodup_map hnd hb ha hk
    exact heq.symm
  · intro h
    exact List.Perm.of_eq (List.map_congr_left h)

namespace Drift

variable {key : ServiceKey} {rules free : List RouterRule} {d : DesiredRule}
  {desired : List DesiredRule} {turn : DesiredRule × List RouterRule}
  {r lost : RouterRule}

/-! ## One turn -/

def firstOwned? (key : ServiceKey) (rules : List RouterRule) (d : DesiredRule) :
    Option RouterRule :=
  (ownedRules key rules).find? fun r => r.slot == d.slot

/-- A rule of another is taken over in this turn though an owned rule is on
the slot. -/
def seizes (key : ServiceKey) (rules : List RouterRule)
    (turn : DesiredRule × List RouterRule) : Bool :=
  (firstOwned? key rules turn.1).isSome &&
    (turn.2.find? fun r => r.slot == turn.1.slot).isNone &&
    (rules.find? fun r => r.slot == turn.1.slot && !r.isOwnedBy key).isSome

/-- **The two ways of planning come apart over a wanted rule**: a rule of another
is taken over in its turn though an owned rule is on the slot, or it is settled
otherwise. Where it is settled otherwise, the difference is in the interface, at
which no comparison looks. -/
def Diverges (key : ServiceKey) (rules : List RouterRule)
    (turn : DesiredRule × List RouterRule) : Prop :=
  seizes key rules turn = true ∨
    Hosting.settled (turn.1, Takeover.host? key rules turn.1) ≠
      Hosting.settled (turn.1, host? key rules turn.2 turn.1)

/-- As long as a list keeps what was found first, a shorter one finds it too. -/
theorem find?_of_sublist {α : Type} {p : α → Bool} {l l' : List α} {a : α}
    (hsub : l'.Sublist l) (hnd : l.Nodup) (hfind : l.find? p = some a) (ha : a ∈ l') :
    l'.find? p = some a := by
  induction hsub with
  | slnil => exact absurd ha List.not_mem_nil
  | cons b hsub ih =>
      rw [List.nodup_cons] at hnd
      rw [List.find?_cons] at hfind
      cases hb : p b with
      | true =>
          obtain rfl : b = a := by simpa [hb] using hfind
          exact absurd (hsub.subset ha) hnd.1
      | false => exact ih hnd.2 (by simpa [hb] using hfind) ha
  | cons_cons b hsub ih =>
      rw [List.nodup_cons] at hnd
      rw [List.find?_cons] at hfind ⊢
      cases hb : p b with
      | true => simpa [hb] using hfind
      | false =>
          rw [hb] at hfind
          rcases List.mem_cons.mp ha with rfl | ha
          · exact absurd (List.find?_some hfind) (by simp [hb])
          · simpa [hb] using ih hnd.2 hfind ha

/-- As long as the first owned rule on its slot is free, a wanted rule has the
same host. -/
theorem host?_of_mem (hsub : free.Sublist (ownedRules key rules))
    (hnd : (ownedRules key rules).Nodup) (hfirst : firstOwned? key rules d = some r)
    (hr : r ∈ free) : host? key rules free d = some r := by
  unfold host?
  rw [find?_of_sublist hsub hnd hfirst hr]
  rfl

theorem host?_of_firstOwned?_eq_none (hsub : free.Sublist (ownedRules key rules))
    (hfirst : firstOwned? key rules d = none) :
    host? key rules free d = Takeover.host? key rules d := by
  have hnone : (free.find? fun r => r.slot == d.slot) = none :=
    List.find?_eq_none.mpr fun r hr => List.find?_eq_none.mp hfirst r (hsub.subset hr)
  unfold host? Takeover.host?
  unfold firstOwned? at hfirst
  rw [hnone, hfirst]

theorem host?_ownedRules :
    host? key rules (ownedRules key rules) d = Takeover.host? key rules d :=
  rfl

/-- **Only a wanted rule that has lost its owned rule diverges.** -/
theorem lost_of_diverges (hsub : turn.2.Sublist (ownedRules key rules))
    (hnd : (ownedRules key rules).Nodup) (h : Diverges key rules turn) :
    ∃ lost, firstOwned? key rules turn.1 = some lost ∧ lost ∉ turn.2 := by
  cases hfirst : firstOwned? key rules turn.1 with
  | none =>
      rcases h with hseizes | hsettled
      · simp [seizes, hfirst] at hseizes
      · rw [host?_of_firstOwned?_eq_none hsub hfirst] at hsettled
        exact absurd rfl hsettled
  | some lost =>
      refine ⟨lost, rfl, fun hmem => ?_⟩
      have hfree := find?_of_sublist hsub hnd hfirst hmem
      rcases h with hseizes | hsettled
      · simp [seizes, hfree] at hseizes
      · refine absurd ?_ hsettled
        rw [host?_of_mem hsub hnd hfirst hmem, ← host?_ownedRules,
          host?_of_mem (List.Sublist.refl _) hnd hfirst
            (List.mem_of_find?_eq_some hfirst)]

/-! ## All turns -/

theorem matchRule_sublist : (matchRule key rules free d).2.Sublist free := by
  have hout : Outcome key rules free d (matchRule key rules free d) := matchRule_outcome
  cases hmatch : matchRule key rules free d with
  | mk verdict left =>
      rw [hmatch] at hout
      cases hout
      · exact List.filter_sublist
      · exact List.Sublist.refl _
      · exact List.filter_sublist
      · exact List.Sublist.refl _

theorem sublist_of_mem_turns (h : turn ∈ turns key rules free desired) :
    turn.2.Sublist free := by
  induction desired generalizing free with
  | nil => exact absurd h List.not_mem_nil
  | cons d desired ih =>
      rcases List.mem_cons.mp h with rfl | h
      · exact List.Sublist.refl _
      · exact (ih h).trans matchRule_sublist

/-- A free rule that a turn takes is on the slot of the wanted rule or bears
its name. -/
theorem taken_of_matchRule (hnd : (ids free).Nodup) (hr : r ∈ free)
    (hleft : r ∉ (matchRule key rules free d).2) :
    r.slot = d.slot ∨ r.owner? = some d.owner := by
  have hself : ∀ r' ∈ free, r ∉ without r'.id free → r' = r := by
    intro r' hr' hnot
    refine eq_of_id_eq hnd hr' hr (by_contra fun hne => hnot (mem_without.mpr ⟨hr, ?_⟩))
    exact fun h => hne h.symm
  have hout : Outcome key rules free d (matchRule key rules free d) := matchRule_outcome
  cases hmatch : matchRule key rules free d with
  | mk verdict left =>
      rw [hmatch] at hout hleft
      cases hout with
      | same r' mem slot _ =>
          obtain rfl := hself r' mem hleft
          exact Or.inl slot
      | foreign => exact absurd hr hleft
      | moved r' mem _ owner _ =>
          obtain rfl := hself r' mem hleft
          exact Or.inr owner
      | missing => exact absurd hr hleft

/-- **An owned rule that is gone before its slot's turn went to a wanted rule of
its name.** -/
theorem robber_of_lost (hslots : (desired.map DesiredRule.slot).Nodup)
    (hnd : (ids free).Nodup) (hturn : turn ∈ turns key rules free desired)
    (hmem : lost ∈ free) (hslot : lost.slot = turn.1.slot)
    (hlost : lost ∉ turn.2) :
    ∃ d ∈ desired, d.slot ≠ lost.slot ∧ lost.owner? = some d.owner := by
  -- the rule is free in the first turn, and some turn before this one has taken
  -- it
  induction desired generalizing free with
  | nil => exact absurd hturn List.not_mem_nil
  | cons d desired ih =>
      rw [List.map_cons, List.nodup_cons] at hslots
      rcases List.mem_cons.mp hturn with rfl | hturn
      · exact absurd hmem hlost
      have hlater : turn.1 ∈ desired := by
        have hfst := List.mem_map_of_mem (f := Prod.fst) hturn
        rwa [map_fst_turns] at hfst
      have hne : d.slot ≠ lost.slot := by
        rw [hslot]
        exact fun h => hslots.1 (List.mem_map.mpr ⟨turn.1, hlater, h.symm⟩)
      by_cases hleft : lost ∈ (matchRule key rules free d).2
      · obtain ⟨d', hd', hfound⟩ :=
          ih hslots.2 (hnd.sublist (matchRule_sublist.map _)) hturn hleft
        exact ⟨d', List.mem_cons_of_mem _ hd', hfound⟩
      · rcases taken_of_matchRule hnd hmem hleft with hsame | howner
        · exact absurd hsame.symm hne
        · exact ⟨d, List.mem_cons_self, hne, howner⟩

/-! ## The rules of others -/

def foreign? (key : ServiceKey) (host : Option RouterRule) : Option RouterRule :=
  host.filter fun r => !r.isOwnedBy key

theorem foreign_rules (key : ServiceKey) (hosts : List Hosting) :
    (Hosting.rules hosts).filter (fun r => !r.isOwnedBy key) =
      hosts.filterMap fun host => foreign? key host.2 := by
  unfold Hosting.rules foreign?
  rw [← List.filterMap_eq_filter, List.filterMap_filterMap]
  refine List.filterMap_congr fun host _ => ?_
  cases host.2 with
  | none => rfl
  | some r =>
      by_cases h : r.isOwnedBy key = true <;>
        simp [h, Option.guard, Option.filter]

/-- **In one turn the correction takes over what the plan does**, unless it seizes
a rule. -/
theorem foreign_host (hsub : turn.2.Sublist (ownedRules key rules)) :
    (seizes key rules turn = false ∧ foreign? key (host? key rules turn.2 turn.1) =
      foreign? key (Takeover.host? key rules turn.1)) ∨
    (seizes key rules turn = true ∧
      foreign? key (Takeover.host? key rules turn.1) = none ∧
      ∃ r, foreign? key (host? key rules turn.2 turn.1) = some r ∧
        r.slot = turn.1.slot) := by
  have howned : ∀ {free : List RouterRule} {r : RouterRule},
      free.Sublist (ownedRules key rules) →
      free.find? (fun r => r.slot == turn.1.slot) = some r →
      foreign? key (host? key rules free turn.1) = none := by
    intro free r hfree hfind
    have hkey := (List.mem_filter.mp (hfree.subset (List.mem_of_find?_eq_some hfind))).2
    simp [host?, foreign?, hfind, hkey]
  cases hfirst : firstOwned? key rules turn.1 with
  | none =>
      exact Or.inl ⟨by simp [seizes, hfirst], by
        rw [host?_of_firstOwned?_eq_none hsub hfirst]⟩
  | some lost =>
      have hplan : foreign? key (Takeover.host? key rules turn.1) = none :=
        howned (List.Sublist.refl _) hfirst
      cases hfree : turn.2.find? fun r => r.slot == turn.1.slot with
      | some r =>
          exact Or.inl ⟨by simp [seizes, hfree], (howned hsub hfree).trans hplan.symm⟩
      | none =>
          cases hforeign : rules.find? fun r =>
              r.slot == turn.1.slot && !r.isOwnedBy key with
          | none =>
              refine Or.inl ⟨by simp [seizes, hforeign], Eq.trans ?_ hplan.symm⟩
              simp [host?, foreign?, hfree, hforeign]
          | some r =>
              have htest := List.find?_some hforeign
              rw [Bool.and_eq_true, beq_iff_eq] at htest
              refine Or.inr ⟨by simp [seizes, hfirst, hfree, hforeign], hplan,
                r, ?_, htest.1⟩
              simp only [host?, foreign?, hfree, hforeign, Option.none_or]
              exact Option.filter_eq_some_iff.mpr ⟨rfl, htest.2⟩

def seized? (key : ServiceKey) (rules : List RouterRule)
    (turn : DesiredRule × List RouterRule) : Option RouterRule :=
  if seizes key rules turn then foreign? key (host? key rules turn.2 turn.1) else none

/-- **What is taken over in all turns**: what the plan takes over, and what
is seized. -/
theorem seized_perm {turns : List (DesiredRule × List RouterRule)}
    (hsub : ∀ turn ∈ turns, turn.2.Sublist (ownedRules key rules)) :
    (turns.filterMap fun turn => foreign? key (host? key rules turn.2 turn.1)).Perm
      ((turns.filterMap fun turn => foreign? key (Takeover.host? key rules turn.1)) ++
        turns.filterMap (seized? key rules)) := by
  refine (perm_filterMap_append fun turn hturn => ?_).symm
  rcases foreign_host (hsub turn hturn) with ⟨hseizes, heq⟩ | ⟨hseizes, hnone, -⟩
  · exact Or.inr ⟨by simp [seized?, hseizes], heq.symm⟩
  · exact Or.inl ⟨hnone, by simp [seized?, hseizes]⟩

theorem map_slot_seized {turns : List (DesiredRule × List RouterRule)}
    (hsub : ∀ turn ∈ turns, turn.2.Sublist (ownedRules key rules)) :
    (turns.filterMap (seized? key rules)).map RouterRule.slot =
      (turns.filter (seizes key rules)).map fun turn => turn.1.slot := by
  induction turns with
  | nil => rfl
  | cons turn turns ih =>
      have hrest := ih fun t ht => hsub t (List.mem_cons_of_mem _ ht)
      rcases foreign_host (hsub turn List.mem_cons_self) with
        ⟨hseizes, -⟩ | ⟨hseizes, -, r, hr, hslot⟩
      · rw [List.filterMap_cons_none (by simp [seized?, hseizes]),
          List.filter_cons_of_neg (by simp [hseizes]), hrest]
      · have hsome : seized? key rules turn = some r := by simp [seized?, hseizes, hr]
        rw [List.filterMap_cons_some hsome, List.filter_cons_of_pos hseizes,
          List.map_cons, List.map_cons, hrest, hslot]

end Drift

/-! ## Agreement -/

section

open Takeover Drift

variable {key : ServiceKey} {rules : List RouterRule} {desired : List DesiredRule}

theorem takeover_hosts_eq : Takeover.hosts key rules desired =
    (turns key rules (ownedRules key rules) desired).map fun turn =>
      (turn.1, Takeover.host? key rules turn.1) := by
  have hfst : (turns key rules (ownedRules key rules) desired).map Prod.fst =
    desired := map_fst_turns
  unfold Takeover.hosts
  conv => lhs; rw [← hfst]
  rw [List.map_map]
  rfl

/-- What others keep after a change, they keep after a correction or it is
seized. -/
theorem spared_perm (reference : ObjectReference) (hwanted : Wanted key desired)
    (hnd : (ids rules).Nodup) :
    (spared key rules (Takeover.hosts key rules desired)).Perm
      (spared key rules (Drift.hosts key rules (ownedRules key rules) desired) ++
        (turns key rules (ownedRules key rules) desired).filterMap
          (seized? key rules)) := by
  have hplan := (settles_planFor rules hwanted).others_perm hnd
  have hcorrection := (settles_hosts reference hwanted hnd).others_perm hnd
  have htaken : ∀ turn ∈ turns key rules (ownedRules key rules) desired,
      turn.2.Sublist (ownedRules key rules) :=
    fun turn => sublist_of_mem_turns
  have hseized := @seized_perm key rules _ htaken
  rw [foreign_rules, takeover_hosts_eq, List.filterMap_map] at hplan
  rw [foreign_rules, Drift.hosts, List.filterMap_map] at hcorrection
  rw [List.perm_iff_count] at hplan hcorrection hseized ⊢
  intro c
  have h₁ := hplan c
  have h₂ := hcorrection c
  have h₃ := hseized c
  rw [takeover_hosts_eq, Drift.hosts]
  simp only [List.count_append, Function.comp_def] at h₁ h₂ h₃ ⊢
  omega

theorem isOwnedBy_of_mem_spared {hosts : List Hosting} {s : RuleSpec}
    (h : s ∈ specs (spared key rules hosts)) : s.isOwnedBy key = false := by
  obtain ⟨r, hr, rfl⟩ := List.mem_map.mp h
  have hforeign := (Bool.and_eq_true_iff.mp (List.mem_filter.mp hr).2).1
  exact (Bool.not_eq_true' _).mp hforeign

theorem isOwnedBy_of_mem_settled {hosts : List Hosting} {s : RuleSpec}
    (hkey : key.Valid) (hwanted : Wanted key desired)
    (hfst : hosts.map Prod.fst = desired) (h : s ∈ hosts.map Hosting.settled) :
    s.isOwnedBy key = true := by
  obtain ⟨host, hhost, rfl⟩ := List.mem_map.mp h
  have hd : host.1 ∈ desired := hfst ▸ List.mem_map_of_mem hhost
  have hname : (Hosting.settled host).name = host.1.spec.name := by
    rw [Hosting.settled_eq]
  exact hwanted.isOwnedBy (r := ⟨"", Hosting.settled host⟩) hkey hd hname

theorem spared_perm_iff (reference : ObjectReference) (hwanted : Wanted key desired)
    (hnd : (ids rules).Nodup) :
    (specs (spared key rules (Takeover.hosts key rules desired))).Perm
      (specs
        (spared key rules (Drift.hosts key rules
        (ownedRules key rules) desired))) ↔
    ∀ turn ∈ turns key rules (ownedRules key rules) desired,
      seizes key rules turn = false := by
  have hspared := spared_perm reference hwanted hnd
  constructor
  · intro h turn hturn
    have hlength := h.length_eq
    unfold specs at hlength
    rw [List.length_map, List.length_map, hspared.length_eq,
      List.length_append] at hlength
    have hnil : (turns key rules (ownedRules key rules) desired).filterMap
        (seized? key rules) = [] := List.length_eq_zero_iff.mp (by omega)
    rcases foreign_host (sublist_of_mem_turns hturn) with
      ⟨hseizes, -⟩ | ⟨hseizes, -, r, hr, -⟩
    · exact hseizes
    · have hnone := List.filterMap_eq_nil_iff.mp hnil turn hturn
      simp [seized?, hseizes, hr] at hnone
  · intro h
    have hnil : (turns key rules (ownedRules key rules) desired).filterMap
        (seized? key rules) = [] :=
      List.filterMap_eq_nil_iff.mpr fun turn hturn => by simp [seized?, h turn hturn]
    rw [hnil, List.append_nil] at hspared
    exact hspared.map _

/-- The wanted rules are settled the same exactly where they are turn by turn. -/
theorem settled_perm_iff (rules : List RouterRule) (hwanted : Wanted key desired) :
    ((Takeover.hosts key rules desired).map Hosting.settled).Perm
      ((Drift.hosts key rules (ownedRules key rules) desired).map Hosting.settled) ↔
    ∀ turn ∈ turns key rules (ownedRules key rules) desired,
      Hosting.settled (turn.1, Takeover.host? key rules turn.1) =
        Hosting.settled (turn.1, Drift.host? key rules turn.2 turn.1) := by
  have hslot : ∀ host : Hosting, (Hosting.settled host).slot = host.1.slot := by
    intro host
    rw [Hosting.settled_eq]
    rfl
  rw [takeover_hosts_eq, Drift.hosts, List.map_map, List.map_map]
  refine map_perm_map_iff (k := RuleSpec.slot) (fun turn _ => ?_) ?_
  · exact (hslot (turn.1, Takeover.host? key rules turn.1)).trans
      (hslot (turn.1, Drift.host? key rules turn.2 turn.1)).symm
  · have hfst : (turns key rules (ownedRules key rules) desired).map Prod.fst = desired :=
      map_fst_turns
    have hslots := hwanted.slots_nodup
    rw [← hfst, List.map_map] at hslots
    rw [List.map_congr_left fun turn _ => hslot (turn.1, Takeover.host? key rules turn.1)]
    exact hslots

/-- **Where the two ways of planning agree.** The routers are the same after them,
up to identifiers, exactly where no turn diverges. The correction takes over the
rules of others that the plan takes over, and one on the slot of each turn that
seizes. A turn that diverges has lost an owned rule on its slot, which went to
another wanted rule as its own that had moved. -/
theorem applyAll_agree_iff {fresh : Nat → String} (reference : ObjectReference)
    (hkey : key.Valid) (hwanted : Wanted key desired) (hnd : (ids rules).Nodup)
    (hfresh : Fresh fresh 0 rules) :
    let order := turns key rules (ownedRules key rules) desired
    let changed := applyAll fresh 0 rules
      (planFor key desired rules (revalidate (detect key desired rules) rules))
    let corrected :=
      applyAll fresh 0 rules (compare key reference desired rules).correctionPlan
    ((specs changed).Perm (specs corrected) ↔ ∀ turn ∈ order, ¬Diverges key rules turn) ∧
    (∃ seized : List RouterRule,
      seized.map RouterRule.slot =
        (order.filter (seizes key rules)).map (fun turn => turn.1.slot) ∧
      (changed.filter fun r => !r.isOwnedBy key).Perm
        ((corrected.filter fun r => !r.isOwnedBy key) ++ seized)) ∧
    ∀ turn ∈ order, Diverges key rules turn →
      ∃ lost ∈ ownedRules key rules, lost.slot = turn.1.slot ∧ lost ∉ turn.2 ∧
        ∃ d ∈ desired, d.slot ≠ lost.slot ∧ lost.owner? = some d.owner := by
  intro order changed corrected
  have hplan : Settles key rules (Takeover.hosts key rules desired)
      (planFor key desired rules (revalidate (detect key desired rules) rules)) := by
    rw [revalidate_detect]
    exact settles_planFor rules hwanted
  have hcorrection := settles_hosts reference hwanted hnd
  have howned : (ownedRules key rules).Nodup := (hnd.of_map _).filter _
  refine ⟨?_, ⟨order.filterMap (seized? key rules), ?_, ?_⟩, ?_⟩
  · have hsplit : (specs changed).Perm (specs corrected) ↔ _ :=
      ((hplan.specs_perm hnd hfresh).congr_left _).trans
        (((hcorrection.specs_perm hnd hfresh).congr_right _).trans
          (perm_append_iff_of_test (fun _ => isOwnedBy_of_mem_spared)
            (fun _ => isOwnedBy_of_mem_spared)
            (fun _ => isOwnedBy_of_mem_settled hkey hwanted hosts_map_fst)
            (fun _ => isOwnedBy_of_mem_settled hkey hwanted map_fst_hosts)))
    rw [hsplit, spared_perm_iff reference hwanted hnd, settled_perm_iff rules hwanted]
    constructor
    · rintro ⟨hseizes, hsettled⟩ turn hturn (hdiverges | hdiverges)
      · exact absurd (hdiverges.symm.trans (hseizes turn hturn)) Bool.noConfusion
      · exact hdiverges (hsettled turn hturn)
    · intro h
      refine ⟨fun turn hturn => ?_, fun turn hturn => ?_⟩
      · exact Bool.eq_false_iff.mpr fun hseizes => h turn hturn (Or.inl hseizes)
      · exact by_contra fun hne => h turn hturn (Or.inr hne)
  · exact map_slot_seized fun turn => sublist_of_mem_turns
  · obtain ⟨-, hchanged, -⟩ := hplan.outcome hkey hwanted hnd hosts_map_fst hfresh
    obtain ⟨-, hcorrected, -⟩ := hcorrection.outcome hkey hwanted hnd map_fst_hosts hfresh
    exact hchanged.trans ((spared_perm reference hwanted hnd).trans
      (hcorrected.symm.append_right _))
  · intro turn hturn hdiverges
    obtain ⟨lost, hfirst, hlost⟩ :=
      lost_of_diverges (sublist_of_mem_turns hturn) howned hdiverges
    have hmem := List.mem_of_find?_eq_some hfirst
    have hslot : lost.slot = turn.1.slot := by simpa using List.find?_some hfirst
    have hids : (ids (ownedRules key rules)).Nodup :=
      hnd.sublist (List.filter_sublist.map _)
    exact ⟨lost, hmem, hslot, hlost,
      robber_of_lost hwanted.slots_nodup hids hturn hmem hslot hlost⟩

end

/-! ## Where they do not -/

namespace Sample

def crossing : List DesiredRule :=
  [wish "http" 90 9090, wish "https" 80 8080]

def crossed : List RouterRule :=
  [⟨"a", (wish "http" 80 8080).spec⟩,
    ⟨"b", { (wish "https" 80 8080).spec with name := "by hand" }⟩]

theorem wanted_crossing : Wanted key crossing :=
  ⟨by decide, by decide, by decide, by decide⟩

theorem fresh_crossed : Fresh fresh 0 crossed := by
  have hids : ids crossed ⊆ ids rules := by decide
  exact ⟨fresh_injective, fun n hn hmem => fresh_rules.unused n hn (hids hmem)⟩

end Sample

open Takeover Sample in
theorem applyAll_agree_iff_crossed :
    let order := Drift.turns key crossed (ownedRules key crossed) crossing
    let changed := applyAll Sample.fresh 0 crossed
      (planFor key crossing crossed (revalidate (detect key crossing crossed) crossed))
    let corrected := applyAll Sample.fresh 0 crossed
      (Drift.compare key default crossing crossed).correctionPlan
    ((specs changed).Perm (specs corrected) ↔
      ∀ turn ∈ order, ¬Drift.Diverges key crossed turn) ∧
    (∃ seized : List RouterRule,
      seized.map RouterRule.slot =
        (order.filter (Drift.seizes key crossed)).map (fun turn => turn.1.slot) ∧
      (changed.filter fun r => !r.isOwnedBy key).Perm
        ((corrected.filter fun r => !r.isOwnedBy key) ++ seized)) ∧
    ∀ turn ∈ order, Drift.Diverges key crossed turn →
      ∃ lost ∈ ownedRules key crossed, lost.slot = turn.1.slot ∧ lost ∉ turn.2 ∧
        ∃ d ∈ crossing, d.slot ≠ lost.slot ∧ lost.owner? = some d.owner :=
  applyAll_agree_iff default key_valid wanted_crossing (by decide) fresh_crossed

open Takeover Sample in
/-- **The two ways of planning differ.** The rule that was typed in by hand stays
after a change and is taken over by a correction. -/
theorem applyAll_disagree :
    let changed := applyAll Sample.fresh 0 crossed
      (planFor key crossing crossed (revalidate (detect key crossing crossed) crossed))
    let corrected := applyAll Sample.fresh 0 crossed
      (Drift.compare key default crossing crossed).correctionPlan
    key.Valid ∧ Wanted key crossing ∧ (ids crossed).Nodup ∧ Fresh Sample.fresh 0 crossed ∧
    ¬(specs changed).Perm (specs corrected) ∧
    (changed.filter fun r => !r.isOwnedBy key) =
      [⟨"b", { (wish "https" 80 8080).spec with name := "by hand" }⟩] ∧
    (corrected.filter fun r => !r.isOwnedBy key) = [] := by
  intro changed corrected
  refine ⟨key_valid, wanted_crossing, by decide, fresh_crossed, ?_⟩
  have htakeovers : revalidate (detect key crossing crossed) crossed = [] := by
    decide +kernel
  have hplan : planFor key crossing crossed [] =
      [.update (wish "https" 80 8080) ⟨"a",
        (wish "http" 80 8080).spec⟩ .configurationMismatchSafe [.name],
      .create (wish "http" 90 9090) .portNotYetExists] := by
    refine Operation.sequence_eq ?_ (by decide +kernel)
    exact (Adjustment.compute_perm (ownedRules key crossed) []
      wanted_crossing.slots_nodup).trans (by decide +kernel)
  have hcorrection : (Drift.compare key default crossing crossed).correctionPlan =
      [.delete (wish "http" 80 8080) ⟨"a", (wish "http" 80 8080).spec⟩ .driftWrongRisky,
      .update (wish "https" 80 8080)
        ⟨"b", { (wish "https" 80 8080).spec with name := "by hand" }⟩ .ownershipTakeover
        [.ownership, .name],
      .create (wish "http" 90 9090) .driftWrongRisky] :=
    Operation.sequence_eq (by decide +kernel) (by decide +kernel)
  have hchanged : changed = [⟨"a", (wish "https" 80 8080).spec⟩,
      ⟨"b", { (wish "https" 80 8080).spec with name := "by hand" }⟩,
      ⟨Sample.fresh 1, (wish "http" 90 9090).spec⟩] := by
    show applyAll Sample.fresh 0 crossed (planFor key crossing crossed
      (revalidate _ _)) = _
    rw [htakeovers, hplan]
    decide +kernel
  have hcorrected : corrected =
      [⟨"b", (wish "https" 80 8080).spec⟩,
          ⟨Sample.fresh 2, (wish "http" 90 9090).spec⟩] := by
    show applyAll Sample.fresh 0 crossed (Drift.compare _ _ _ _).correctionPlan = _
    rw [hcorrection]
    decide +kernel
  rw [hchanged, hcorrected]
  decide +kernel

end PortForwarding
