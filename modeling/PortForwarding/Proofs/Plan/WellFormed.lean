import PortForwarding.Proofs.Plan.Agreement
import PortForwarding.Proofs.Plan.Territory

/-!
# What can be relied on in a plan

Whoever carries out a plan, and undoes it if something fails, looks at one
operation after the other and knows nothing of what the plan is for. `WellFormed`
is what can be relied on: what the operations address, what becomes of slots and
of rules of others, and the order of it all.

Most of this holds of every plan that settles what a Service asks for
(`Settles.wellFormed`). Three things have to be looked up in the planners
themselves: that a takeover is called one (`Licit`), that a rule without a host
comes to a slot where nobody else has a rule, and the order.
-/

namespace PortForwarding

open Listing

namespace Plan

open Operation

/-! ## What can be relied on -/

/-- **The form of a plan** for one Service against a listing. -/
structure WellFormed (key : ServiceKey) (desired : List DesiredRule)
    (rules : List RouterRule) (plan : List Operation) : Prop where
  /-- What is addressed is in the listing, and no identifier is addressed twice. -/
  grounded : Grounded rules plan
  /-- A creation addresses nothing. -/
  creation : ∀ op ∈ plan, op.kind = .create → op.existing = none
  /-- Nothing is deleted but what the Service owns. -/
  deletion : ∀ op ∈ plan, ∀ r, op.deleted? = some r → r.isOwnedBy key = true
  /-- What is overwritten stays on its slot. -/
  slot : ∀ op ∈ plan, ∀ r d, op.rewrite? = some (r, d) → d.slot = r.slot
  /-- A rule of another is addressed by takeovers only, and on a slot that is
  asked for. -/
  takeover : ∀ op ∈ plan, ∀ r, op.existing = some r → r.isOwnedBy key = false →
    op.kind = .update ∧ op.reason = .ownershipTakeover ∧ op.rule ∈ desired ∧
      op.rule.slot = r.slot
  /-- Nothing is brought but what is asked for. -/
  brings : ∀ op ∈ plan, op.kind ≠ .delete → op.rule ∈ desired
  /-- A slot is written or created once at most. -/
  once : ((plan.filter fun op => op.kind != .delete).map Operation.slot).Nodup
  /-- A rule is created only where all rules that were on its slot are deleted. -/
  vacated : ∀ op ∈ plan, op.kind = .create → ∀ r ∈ rules, r.slot = op.slot →
    r ∈ deletions plan
  /-- Deletions come first and creations last. -/
  ordered : plan.Pairwise fun a b => a.kind.rank ≤ b.kind.rank

/-- An operation that creates addresses nothing, and one that addresses a rule of
another is a takeover and says so. -/
structure Licit (key : ServiceKey) (op : Operation) : Prop where
  creation : op.kind = .create → op.existing = none
  takeover : ∀ r, op.existing = some r → r.isOwnedBy key = false →
    op.kind = .update ∧ op.reason = .ownershipTakeover

section

variable {key : ServiceKey} {desired : List DesiredRule} {rules : List RouterRule}
  {hosts : List Hosting} {plan : List Operation} {op : Operation} {d : DesiredRule}
  {r : RouterRule}

/-- What a plan writes and creates comes to the slots of its rewrites and
creations. -/
theorem brought_slots_perm (plan : List Operation)
    (htargeted : ∀ op ∈ plan, op.kind ≠ .create → op.existing.isSome) :
    ((plan.filter fun op => op.kind != .delete).map Operation.slot).Perm
      ((rewrites plan).map (fun w => w.2.slot) ++
        (creations plan).map DesiredRule.slot) := by
  induction plan with
  | nil => exact List.Perm.refl _
  | cons op plan ih =>
      have hrest := ih fun op' hop' => htargeted op' (List.mem_cons_of_mem _ hop')
      unfold rewrites creations at hrest ⊢
      cases hk : op.kind with
      | delete => simpa [hk, rewrite?, creation?] using hrest
      | update =>
          obtain ⟨e, hex⟩ := Option.isSome_iff_exists.mp
            (htargeted op List.mem_cons_self (by simp [hk]))
          simpa [hk, hex, rewrite?, creation?, Operation.slot] using hrest
      | create =>
          simp only [List.filter_cons, List.filterMap_cons, hk, rewrite?, creation?]
          exact (hrest.cons op.slot).trans List.perm_middle.symm

theorem mem_rewrites (hop : op ∈ plan) (hk : op.kind = .update)
    (hex : op.existing = some r) : (r, op.rule) ∈ rewrites plan :=
  List.mem_filterMap.mpr ⟨op, hop, rewrite?_eq_some.mpr ⟨hk, hex, rfl⟩⟩

/-- **A plan that settles what is asked for is well-formed**, as far as it is
licit, in order, and creates nothing where somebody else has a rule. -/
theorem Settles.wellFormed (hnd : (ids rules).Nodup)
    (h : Settles key rules hosts plan) (hhosts : hosts.map Prod.fst = desired)
    (hlicit : ∀ op ∈ plan, Licit key op)
    (hvacant : ∀ d, (d, none) ∈ hosts → ∀ r ∈ rules, r.slot = d.slot →
      r.isOwnedBy key = true)
    (hordered : plan.Pairwise fun a b => a.kind.rank ≤ b.kind.rank) :
    WellFormed key desired rules plan := by
  have hguest : ∀ r d, (r, d) ∈ rewrites plan → (d, some r) ∈ hosts := by
    intro r d hw
    exact (Hosting.mem_rewrites.mp (h.overwrites.mem_iff.mp hw)).1
  have hdeleted : ∀ r ∈ deletions plan, r.isOwnedBy key = true := by
    intro r hr
    exact (List.mem_filter.mp ((h.mem_deletions_iff hnd).mp hr).1).2
  refine ⟨h.grounded hnd, fun op hop => (hlicit op hop).creation, ?_, ?_, ?_, ?_,
    ?_, ?_, hordered⟩
  · intro op hop r hr
    exact hdeleted r (List.mem_filterMap.mpr ⟨op, hop, hr⟩)
  · intro op hop r d hw
    exact (h.fits d r (hguest r d (List.mem_filterMap.mpr ⟨op, hop, hw⟩))).2.symm
  · intro op hop r hex hforeign
    obtain ⟨hk, hreason⟩ := (hlicit op hop).takeover r hex hforeign
    have hhost := hguest r op.rule (mem_rewrites hop hk hex)
    refine ⟨hk, hreason, ?_, (h.fits op.rule r hhost).2.symm⟩
    rw [← hhosts]
    exact List.mem_map_of_mem hhost
  · intro op hop hk
    rw [← hhosts]
    exact h.rule_mem hop hk
  · have hslots :=
      (Hosting.slots_perm fun d r hr => (h.fits d r hr).2).nodup_iff.mpr h.apart
    rw [(brought_slots_perm plan h.targeted).nodup_iff]
    rw [((h.overwrites.map _).append (h.creates.map _)).nodup_iff]
    exact (List.nodup_append.mp hslots).2.1
  · intro op hop hk r hr hslot
    have hhost : (op.rule, none) ∈ hosts := by
      refine Hosting.mem_creations.mp (h.creates.mem_iff.mp ?_)
      exact List.mem_filterMap.mpr ⟨op, hop, creation?_eq_some.mpr ⟨hk, rfl⟩⟩
    have howned := hvacant op.rule hhost r hr hslot
    refine (h.mem_deletions_iff hnd).mpr ⟨List.mem_filter.mpr ⟨hr, howned⟩, ?_⟩
    -- a host on this slot would have the same guest as no host
    intro hmem
    obtain ⟨⟨d, host⟩, hd, rfl⟩ := List.mem_filterMap.mp hmem
    have hsame := List.inj_on_of_nodup_map h.apart hd hhost
      ((h.fits d r hd).2.symm.trans hslot)
    exact absurd (congrArg Prod.snd hsame) (by simp)

/-- `p` tells nothing of what is the Service's: neither settings under its name
nor rules on slots that it asks for. -/
structure Elsewhere (key : ServiceKey) (desired : List DesiredRule)
    (rules : List RouterRule) (p : RuleSpec → Bool) : Prop where
  owned : ∀ spec, spec.isOwnedBy key = true → p spec = false
  slots : ∀ r ∈ rules, ∀ d ∈ desired, d.slot = r.slot → p r.spec = false

/-- Where no such rule has come or gone, it is still nothing of the Service's. -/
theorem Elsewhere.of_filter_eq {p : RuleSpec → Bool} {after : List RouterRule}
    (h : Elsewhere key desired rules p)
    (hsame : (after.filter fun r => p r.spec) = rules.filter fun r => p r.spec) :
    Elsewhere key desired after p := by
  refine ⟨h.owned, fun r hr d hd hslot => ?_⟩
  by_contra hp
  have hmem : r ∈ after.filter fun r => p r.spec :=
    List.mem_filter.mpr ⟨hr, by simpa using hp⟩
  rw [hsame] at hmem
  exact hp (h.slots r (List.mem_filter.mp hmem).1 d hd hslot)

/-- **A plan has nothing to do with others.** -/
theorem WellFormed.spares {p : RuleSpec → Bool}
    (h : WellFormed key desired rules plan) (hkey : key.Valid)
    (hwanted : Wanted key desired) (hp : Elsewhere key desired rules p)
    (hop : op ∈ plan) : ∀ spec ∈ op.taken ++ op.given, p spec = false := by
  intro spec hspec
  rcases List.mem_append.mp hspec with htaken | hgiven
  · obtain ⟨e, htarget, rfl⟩ := List.mem_map.mp htaken
    have htarget : op.target? = some e := Option.mem_toList.mp htarget
    have hk : op.kind ≠ .create := by
      intro hk
      simp [target?, hk] at htarget
    obtain ⟨e', he, hex⟩ := h.grounded.each op hop hk
    obtain rfl : e' = e := by
      rw [target?_eq_existing hk, hex] at htarget
      exact Option.some.inj htarget
    by_cases hforeign : e'.isOwnedBy key = true
    · exact hp.owned e'.spec hforeign
    · obtain ⟨-, -, hd, hslot⟩ :=
        h.takeover op hop e' hex (Bool.eq_false_iff.mpr hforeign)
      exact hp.slots e' he op.rule hd hslot
  · have hk : op.kind ≠ .delete := by
      intro hk
      simp [given, hk] at hgiven
    obtain rfl : spec = op.rule.spec := by
      cases hkind : op.kind with
      | delete => exact absurd hkind hk
      | create => simpa [given, hkind] using hgiven
      | update => simpa [given, hkind] using hgiven
    have hmine : RouterRule.isOwnedBy ⟨"", op.rule.spec⟩ key = true :=
      hwanted.isOwnedBy hkey (h.brings op hop hk) rfl
    exact hp.owned op.rule.spec hmine

theorem licit_deleteOwned {reason : Reason} (hr : r.isOwnedBy key = true)
    (h : deleteOwned? r reason = some op) : Licit key op := by
  obtain ⟨rule, -, rfl⟩ := Option.map_eq_some_iff.mp h
  refine ⟨fun hk => absurd hk (by simp [delete]), ?_⟩
  intro r' hex hforeign
  obtain rfl : r = r' := Option.some.inj hex
  exact absurd (hr.symm.trans hforeign) (by simp)

theorem licit_create {reason : Reason} : Licit key (.create d reason) :=
  ⟨fun _ => rfl, fun _ hex => absurd hex (by simp [create])⟩

theorem licit_update {reason : Reason} {ms : List Mismatch}
    (h : r.isOwnedBy key = false → reason = .ownershipTakeover) :
    Licit key (.update d r reason ms) := by
  refine ⟨fun hk => absurd hk (by simp [update]), ?_⟩
  intro r' hex hforeign
  obtain rfl : r = r' := Option.some.inj hex
  exact ⟨rfl, h hforeign⟩

/-- Where nobody is found on a slot, nobody but the Service has a rule there. -/
theorem isOwnedBy_of_no_host {own : Option RouterRule}
    (h : own.or (rules.find? fun r => r.slot == d.slot && !r.isOwnedBy key) = none) :
    ∀ r ∈ rules, r.slot = d.slot → r.isOwnedBy key = true := by
  intro r hr hslot
  have hnone := List.find?_eq_none.mp (Option.or_eq_none_iff.mp h).2 r hr
  simpa [hslot] using hnone

/-! ## The plan after a change -/

open Takeover Adjustment in
theorem licit_planFor (hasked : Asked key desired)
    (hop : op ∈ planFor key desired rules (detect key desired rules)) :
    Licit key op := by
  have hparts := (planFor_perm key rules hasked.slots_nodup).mem_iff.mp hop
  rw [List.mem_append, List.mem_append] at hparts
  rcases hparts with hop | hop | hop
  · obtain ⟨d, -, hon⟩ := List.mem_filterMap.mp hop
    obtain ⟨r, -, rfl⟩ := takeover_of_on? hon
    exact licit_update fun _ => rfl
  · obtain ⟨r, hr, hdelete⟩ := List.mem_filterMap.mp hop
    exact licit_deleteOwned (List.mem_filter.mp (mem_owned_of_surplus hr)).2 hdelete
  · obtain ⟨d, -, hstep⟩ := List.mem_filterMap.mp hop
    unfold step? at hstep
    split at hstep
    · next r hfind =>
        have howned := (List.mem_filter.mp (List.mem_of_find?_eq_some hfind)).2
        obtain ⟨-, hupdate⟩ := Option.ite_none_left_eq_some.mp hstep
        rw [← Option.some.inj hupdate]
        exact licit_update fun hforeign => absurd (howned.symm.trans hforeign) (by simp)
    · obtain ⟨-, hcreate⟩ := Option.ite_none_left_eq_some.mp hstep
      rw [← Option.some.inj hcreate]
      exact licit_create

/-! ## The correction of drift -/

theorem licit_correction (howner : d.owner.key = key)
    (hmoved : r.slot ≠ d.slot → r.isOwnedBy key = true)
    (hop : op ∈ (WrongRule.of d r).correction) : Licit key op := by
  by_cases hslot : r.slot = d.slot
  · have hsafe : (WrongRule.of d r).isRisky = false := by
      rw [Bool.eq_false_iff]
      exact fun hrisky => WrongRule.isRisky_iff.mp hrisky hslot
    unfold WrongRule.correction at hop
    rw [hsafe] at hop
    obtain rfl := List.mem_singleton.mp hop
    refine licit_update fun hforeign => ?_
    have htakeover : (WrongRule.of d r).isTakeover = true := by
      refine List.contains_iff_mem.mpr (List.mem_filter.mpr ⟨by decide, ?_⟩)
      have hother : r.isOwnedBy d.owner.key = false := by
        rw [howner]
        exact hforeign
      show (!r.isOwnedBy d.owner.key) = true
      rw [hother]
      rfl
    show (if (WrongRule.of d r).isTakeover then _ else _) = _
    rw [if_pos htakeover]
  · unfold WrongRule.correction at hop
    rw [WrongRule.isRisky_iff.mpr hslot] at hop
    rcases List.mem_append.mp hop with hop | hop
    · exact licit_deleteOwned (hmoved hslot) (Option.mem_toList.mp hop)
    · obtain rfl := List.mem_singleton.mp hop
      exact licit_create

open Drift in
/-- One verdict after another is licit, as long as nothing is free but what
is owned. -/
theorem licit_matchAll {free : List RouterRule}
    (howner : ∀ d ∈ desired, d.owner.key = key)
    (hfree : ∀ r ∈ free, r.isOwnedBy key = true)
    (hop : op ∈ (matchAll key rules free desired).1.flatMap operations) :
    Licit key op := by
  induction desired generalizing free with
  | nil => exact absurd hop List.not_mem_nil
  | cons d desired ih =>
      have hout : Outcome key rules free d (matchRule key rules free d) :=
        matchRule_outcome
      cases hmatch : matchRule key rules free d with
      | mk verdict left =>
          rw [hmatch] at hout
          simp only [matchAll, hmatch, List.flatMap_cons] at hop
          have howned := howner d List.mem_cons_self
          rcases List.mem_append.mp hop with hnow | hlater
          · cases hout with
            | same r mem slot _ =>
                split at hnow
                · exact absurd hnow List.not_mem_nil
                · exact licit_correction howned (fun hne => absurd slot hne) hnow
            | foreign r _ slot _ _ =>
                exact licit_correction howned (fun hne => absurd slot hne) hnow
            | moved r mem _ _ _ =>
                exact licit_correction howned (fun _ => hfree r mem) hnow
            | missing =>
                obtain rfl := List.mem_singleton.mp hnow
                exact licit_create
          · have hsub : left.Sublist free := by
              have hmatched : (matchRule key rules free d).2.Sublist free :=
                matchRule_sublist
              rw [hmatch] at hmatched
              exact hmatched
            exact ih (fun d' hd' => howner d' (List.mem_cons_of_mem _ hd'))
              (fun r hr => hfree r (hsub.subset hr)) hlater

open Drift in
theorem licit_correctionPlan (reference : ObjectReference)
    (hasked : Asked key desired) (hnd : (ids rules).Nodup)
    (hop : op ∈ (compare key reference desired rules).correctionPlan) :
    Licit key op := by
  have howned : ∀ r ∈ ownedRules key rules, r ∈ rules ∧ r.isOwnedBy key = true :=
    fun r hr => List.mem_filter.mp hr
  obtain ⟨-, -, -, -, -, hleft⟩ :=
    matchAll_settles hasked.owner howned (hnd.sublist (List.filter_sublist.map _))
  rcases List.mem_append.mp
    ((correctionPlan_perm key reference desired rules).mem_iff.mp hop)
    with hop | hop
  · exact licit_matchAll hasked.owner (fun r hr => (howned r hr).2) hop
  · obtain ⟨r, hr, hdelete⟩ := List.mem_filterMap.mp hop
    exact licit_deleteOwned (hleft r hr) hdelete

/-! ## Both ways of planning -/

open Takeover in
theorem wellFormed_planFor (hasked : Asked key desired) (hnd : (ids rules).Nodup) :
    WellFormed key desired rules
      (planFor key desired rules (revalidate (detect key desired rules) rules)) := by
  rw [revalidate_detect]
  refine (hasked.settles_planFor rules).wellFormed hnd hosts_map_fst
    (fun op hop => licit_planFor hasked hop) ?_ (sequence_ordered _)
  intro d hd
  exact isOwnedBy_of_no_host (mem_hosts.mp hd).2

theorem wellFormed_correctionPlan (reference : ObjectReference)
    (hasked : Asked key desired) (hnd : (ids rules).Nodup) :
    WellFormed key desired rules
      (Drift.compare key reference desired rules).correctionPlan := by
  refine (Drift.settles_of_asked reference hasked hnd).wellFormed hnd Drift.map_fst_hosts
    (fun op hop => licit_correctionPlan reference hasked hnd hop) ?_ (sequence_ordered _)
  intro d hd
  obtain ⟨turn, -, hturn⟩ := List.mem_map.mp hd
  obtain ⟨rfl, hhost⟩ := Prod.mk.inj hturn
  exact isOwnedBy_of_no_host hhost

open Takeover in
/-- **Plans are well-formed**, after a change and against drift: what is asked for
decides what is planned, and its names may be any. -/
theorem planned_wellFormed (reference : ObjectReference) (hasked : Asked key desired)
    (hnd : (ids rules).Nodup) :
    WellFormed key desired rules
      (planFor key desired rules (revalidate (detect key desired rules) rules)) ∧
    WellFormed key desired rules
      (Drift.compare key reference desired rules).correctionPlan :=
  ⟨wellFormed_planFor hasked hnd, wellFormed_correctionPlan reference hasked hnd⟩

end

open Takeover Sample in
/-- The plan of a listing with a rule of another, a duplicate and a rule that has
to move. -/
theorem planned_wellFormed_sample :
    Asked key desired ∧ (ids rules).Nodup ∧
    WellFormed key desired rules
      (planFor key desired rules (revalidate (detect key desired rules) rules)) ∧
    WellFormed key desired rules
      (Drift.compare key default desired rules).correctionPlan :=
  ⟨wanted.asked, by decide, planned_wellFormed default wanted.asked (by decide)⟩

end Plan

end PortForwarding
