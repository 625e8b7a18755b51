import PortForwarding.Plan.Drift
import PortForwarding.Proofs.Plan.Settlement

/-!
# The correction of drift settles what the Service wants

The hosts come out of the matching itself: a rule matched on the wanted slot,
owned or not, is the host; one that has moved is deleted and made anew, so that
the wanted rule has no host. What one verdict does is `matchRule_outcome`; the
owned rules that are still free carry the induction over the wanted ones
(`matchAll_settles`).
-/

namespace PortForwarding

open Listing Operation Plan

/-! ## What a wrong rule takes -/

namespace WrongRule

variable {d : DesiredRule} {r : RouterRule} {key : ServiceKey}

theorem isRisky_iff : (WrongRule.of d r).isRisky = true ↔ r.slot ≠ d.slot := by
  unfold isRisky of mismatches
  rw [List.any_eq_true]
  constructor
  · rintro ⟨m, hm, hrisky⟩ hslot
    have hholds := (List.mem_filter.mp hm).2
    cases m <;> simp_all [Mismatch.holds, Mismatch.isRisky]
  · intro hslot
    by_contra hnone
    have hequal : ∀ m ∈ [Mismatch.externalPort, .internalPort, .protocol],
        Mismatch.holds d r m = false := by
      intro m hm
      by_contra hholds
      refine hnone ⟨m, List.mem_filter.mpr ⟨?_, by simpa using hholds⟩, ?_⟩
      · revert hm
        cases m <;> decide
      · revert hm
        cases m <;> decide
    have hexternal := hequal .externalPort (by decide)
    have hinternal := hequal .internalPort (by decide)
    have hprotocol := hequal .protocol (by decide)
    simp only [Mismatch.holds, bne_eq_false_iff_eq] at hexternal hinternal hprotocol
    cases hr : r.slot
    cases hd : d.slot
    simp_all

theorem correction_of_slot_eq (h : r.slot = d.slot) :
    ∃ reason ms, (WrongRule.of d r).correction = [.update d r reason ms] := by
  have hsafe : (WrongRule.of d r).isRisky = false := by
    rw [Bool.eq_false_iff]
    exact fun hrisky => isRisky_iff.mp hrisky h
  unfold correction
  rw [hsafe]
  exact ⟨_, _, rfl⟩

theorem correction_of_slot_ne (h : r.slot ≠ d.slot)
    (howned : r.isOwnedBy key = true) :
    ∃ gone, (WrongRule.of d r).correction =
      [.delete gone r .driftWrongRisky, .create d .driftWrongRisky] := by
  obtain ⟨o, ho, -⟩ := RouterRule.isOwnedBy_iff.mp howned
  refine ⟨⟨o, r.spec⟩, ?_⟩
  unfold correction
  rw [isRisky_iff.mpr h]
  simp [deleteOwned?, DesiredRule.ofRouterRule?, of, ho]

end WrongRule

namespace Drift

/-! ## One wanted rule -/

def operations : DesiredRule × Verdict → List Operation
  | (_, .right) => []
  | (_, .wrong w) => w.correction
  | (d, .missing) => [.create d .driftMissing]

variable {key : ServiceKey} {rules free : List RouterRule} {d : DesiredRule}
  {desired : List DesiredRule}

/-- The rule that becomes a wanted one as long as these owned rules are free: one
of them on its slot, otherwise the first rule of another there. -/
def host? (key : ServiceKey) (rules free : List RouterRule) (d : DesiredRule) :
    Option RouterRule :=
  (free.find? fun r => r.slot == d.slot).or
    (rules.find? fun r => r.slot == d.slot && !r.isOwnedBy key)

/-- **What becomes of one wanted rule**: an owned rule on its slot or one of
another is its host; an owned rule that has moved goes and is no host; or there
is nothing. -/
inductive Outcome (key : ServiceKey) (rules free : List RouterRule)
    (d : DesiredRule) :
    Verdict × List RouterRule → Prop where
  | same (r : RouterRule) (mem : r ∈ free) (slot : r.slot = d.slot)
      (host : host? key rules free d = some r) :
      Outcome key rules free d
        (if mismatches d r = [] then .right else .wrong (.of d r), without r.id free)
  | foreign (r : RouterRule) (mem : r ∈ rules) (slot : r.slot = d.slot)
      (isForeign : r.isOwnedBy key = false) (host : host? key rules free d = some r) :
      Outcome key rules free d (.wrong (.of d r), free)
  | moved (r : RouterRule) (mem : r ∈ free) (slot : r.slot ≠ d.slot)
      (owner : r.owner? = some d.owner) (host : host? key rules free d = none) :
      Outcome key rules free d (.wrong (.of d r), without r.id free)
  | missing (host : host? key rules free d = none) :
      Outcome key rules free d (.missing, free)

theorem matchRule_outcome :
    Outcome key rules free d (matchRule key rules free d) := by
  unfold matchRule
  cases hsame : free.find? fun r => r.slot == d.slot with
  | some r =>
      have hslot : r.slot = d.slot := by simpa using List.find?_some hsame
      simp only [List.isEmpty_iff]
      exact .same r (List.mem_of_find?_eq_some hsame) hslot (by simp [host?, hsame])
  | none =>
      cases hforeign : rules.find? fun r => r.slot == d.slot && !r.isOwnedBy key with
      | some r =>
          have htest := List.find?_some hforeign
          rw [Bool.and_eq_true, beq_iff_eq, Bool.not_eq_true'] at htest
          exact .foreign r (List.mem_of_find?_eq_some hforeign) htest.1 htest.2
            (by simp [host?, hsame, hforeign])
      | none =>
          have hhost : host? key rules free d = none := by simp [host?, hsame, hforeign]
          cases hmoved : free.find? fun r => r.owner? == some d.owner with
          | some r =>
              have hmem := List.mem_of_find?_eq_some hmoved
              refine .moved r hmem (fun hslot => ?_)
                (by simpa using List.find?_some hmoved) hhost
              exact absurd (List.find?_eq_none.mp hsame r hmem) (by simp [hslot])
          | none => exact .missing hhost

theorem deletions_update {r : RouterRule} {reason : Reason} {ms : List Mismatch} :
    deletions [update d r reason ms] = [] := rfl

/-- **What a verdict calls for is what its host asks for.** -/
theorem Outcome.settles {verdict : Verdict} {left : List RouterRule}
    (h : Outcome key rules free d (verdict, left)) (howner : d.owner.key = key)
    (howned : ∀ r ∈ free, r ∈ rules ∧ r.isOwnedBy key = true)
    (hnd : (ids free).Nodup) :
    (∀ r, host? key rules free d = some r → r ∈ rules ∧ r.slot = d.slot) ∧
    (∀ op ∈ operations (d, verdict), op.kind ≠ .create → op.existing.isSome) ∧
    rewrites (operations (d, verdict)) =
      (Hosting.rewrite? (d, host? key rules free d)).toList ∧
    creations (operations (d, verdict)) =
      (Hosting.creation? (d, host? key rules free d)).toList ∧
    left.Sublist free ∧
    free.Perm ((host? key rules free d).toList.filter (RouterRule.isOwnedBy · key) ++
      (deletions (operations (d, verdict)) ++ left)) := by
  cases h with
  | same r mem slot hhost =>
      obtain ⟨hrules, hkey⟩ := howned r mem
      have hfree := perm_cons_without hnd mem
      rw [hhost]
      refine ⟨?_, ?_⟩
      · rintro r' hr'
        obtain rfl := Option.some.inj hr'
        exact ⟨hrules, slot⟩
      · by_cases hnil : mismatches d r = []
        · rw [if_pos hnil]
          exact ⟨by simp [operations], by
            simp [operations, rewrites, Hosting.rewrite?, hnil],
            rfl, List.filter_sublist, by simpa [operations, deletions, hkey] using hfree⟩
        · obtain ⟨reason, ms, hcorrection⟩ := WrongRule.correction_of_slot_eq slot
          rw [if_neg hnil]
          have hops : operations (d, .wrong (.of d r)) = _ := hcorrection
          rw [hops]
          exact ⟨by simp [update],
            by simp [rewrites, Operation.rewrite?, update, Hosting.rewrite?, hnil], rfl,
            List.filter_sublist, by simpa [hkey, deletions_update] using hfree⟩
  | foreign r mem slot isForeign hhost =>
      obtain ⟨reason, ms, hcorrection⟩ := WrongRule.correction_of_slot_eq slot
      have hne := mismatches_ne_nil_of_foreign howner isForeign
      rw [hhost]
      refine ⟨?_, ?_⟩
      · rintro r' hr'
        obtain rfl := Option.some.inj hr'
        exact ⟨mem, slot⟩
      · have hops : operations (d, .wrong (.of d r)) = _ := hcorrection
        rw [hops]
        exact ⟨by simp [update],
          by simp [rewrites, Operation.rewrite?, update, Hosting.rewrite?, hne], rfl,
          List.Sublist.refl _, by simp [isForeign, deletions_update]⟩
  | moved r mem slot _ hhost =>
      obtain ⟨hrules, hkey⟩ := howned r mem
      obtain ⟨gone, hcorrection⟩ := WrongRule.correction_of_slot_ne slot hkey
      have hfree := perm_cons_without hnd mem
      -- made anew under another identifier, so the moved rule itself is nobody's
      -- host
      rw [hhost]
      refine ⟨by simp, ?_⟩
      have hops : operations (d, .wrong (.of d r)) = _ := hcorrection
      rw [hops]
      exact ⟨by simp [delete, create], rfl, rfl, List.filter_sublist, hfree⟩
  | missing hhost =>
      rw [hhost]
      exact ⟨by simp, by simp [operations, create], rfl, rfl, List.Sublist.refl _,
        List.Perm.refl _⟩

/-! ## All wanted rules -/

/-- The wanted rules, each with the owned rules that are free when its
turn comes. -/
def turns (key : ServiceKey) (rules : List RouterRule) :
    List RouterRule → List DesiredRule → List (DesiredRule × List RouterRule)
  | _, [] => []
  | free, d :: rest => (d, free) :: turns key rules (matchRule key rules free d).2 rest

def hosts (key : ServiceKey) (rules free : List RouterRule)
    (desired : List DesiredRule) : List Hosting :=
  (turns key rules free desired).map fun turn => (turn.1, host? key rules turn.2 turn.1)

theorem map_fst_turns : (turns key rules free desired).map Prod.fst = desired := by
  induction desired generalizing free with
  | nil => rfl
  | cons d desired ih => exact congrArg (d :: ·) ih

theorem map_fst_hosts : (hosts key rules free desired).map Prod.fst = desired := by
  unfold hosts
  rw [List.map_map]
  exact map_fst_turns

/-- **The verdicts settle the free rules.** Every owned rule that was free is
afterwards an owned host, deleted, or free still. -/
theorem matchAll_settles (hwanted : ∀ d ∈ desired, d.owner.key = key)
    (howned : ∀ r ∈ free, r ∈ rules ∧ r.isOwnedBy key = true)
    (hnd : (ids free).Nodup) :
    (∀ d r, (d, some r) ∈ hosts key rules free desired →
      r ∈ rules ∧ r.slot = d.slot) ∧
    (∀ op ∈ (matchAll key rules free desired).1.flatMap operations,
      op.kind ≠ .create → op.existing.isSome) ∧
    rewrites ((matchAll key rules free desired).1.flatMap operations) =
      (hosts key rules free desired).filterMap Hosting.rewrite? ∧
    creations ((matchAll key rules free desired).1.flatMap operations) =
      (hosts key rules free desired).filterMap Hosting.creation? ∧
    free.Perm
      ((Hosting.rules (hosts key rules free desired)).filter
        (RouterRule.isOwnedBy · key) ++
        (deletions ((matchAll key rules free desired).1.flatMap operations) ++
          (matchAll key rules free desired).2)) ∧
    ∀ r ∈ (matchAll key rules free desired).2, r.isOwnedBy key = true := by
  -- over the wanted rules: each takes its host out of the free rules that the
  -- next ones find
  induction desired generalizing free with
  | nil =>
      exact ⟨by simp [hosts, turns], by simp [matchAll], rfl, rfl, List.Perm.refl _,
        fun r hr => (howned r hr).2⟩
  | cons d desired ih =>
      have hout : Outcome key rules free d (matchRule key rules free d) :=
        matchRule_outcome
      cases hmatch : matchRule key rules free d with
      | mk verdict left =>
          rw [hmatch] at hout
          obtain ⟨hfit, htarget, hrewrite, hcreate, hsub, hperm⟩ :=
            hout.settles (hwanted d List.mem_cons_self) howned hnd
          obtain ⟨hfits, htargets, hrewrites, hcreates, hperms, hleft⟩ :=
            ih (fun d' hd' => hwanted d' (List.mem_cons_of_mem _ hd'))
              (fun r hr => howned r (hsub.subset hr)) (hnd.sublist (hsub.map _))
          have hhosts : hosts key rules free (d :: desired) =
              (d, host? key rules free d) :: hosts key rules left desired := by
            simp only [hosts, turns, hmatch, List.map_cons]
          simp only [matchAll, hmatch, List.flatMap_cons, hhosts]
          generalize host? key rules free d = host at hfit hrewrite hcreate hperm ⊢
          generalize hosts key rules left desired =
            hosts at hfits hrewrites hcreates hperms ⊢
          refine ⟨?_, ?_, ?_, ?_, ?_, hleft⟩
          · intro d' r hr
            rcases List.mem_cons.mp hr with heq | hr
            · obtain ⟨rfl, hhost⟩ := Prod.mk.inj heq
              exact hfit r hhost.symm
            · exact hfits d' r hr
          · intro op hop
            rcases List.mem_append.mp hop with hop | hop
            · exact htarget op hop
            · exact htargets op hop
          · unfold rewrites at hrewrite hrewrites ⊢
            rw [List.filterMap_append, hrewrite, hrewrites]
            cases h : Hosting.rewrite? (d, host) <;> simp [h]
          · unfold creations at hcreate hcreates ⊢
            rw [List.filterMap_append, hcreate, hcreates]
            cases h : Hosting.creation? (d, host) <;> simp [h]
          · have hrules : Hosting.rules ((d, host) :: hosts) =
                host.toList ++ Hosting.rules hosts := by
              cases host <;> rfl
            rw [hrules]
            unfold deletions at hperm hperms ⊢
            rw [List.perm_iff_count] at hperm hperms ⊢
            intro c
            have h₁ := hperm c
            have h₂ := hperms c
            simp only [List.filterMap_append, List.filter_append,
              List.count_append] at h₁ h₂ ⊢
            omega

/-! ## The correction -/

/-- **What a correction is made of, whatever its order**: the operations of the
verdicts and the deletions of the extra rules. -/
theorem correctionPlan_perm (key : ServiceKey) (reference : ObjectReference)
    (desired : List DesiredRule) (rules : List RouterRule) :
    (compare key reference desired rules).correctionPlan.Perm
      ((matchAll key rules (ownedRules key rules) desired).1.flatMap operations ++
        (matchAll key rules (ownedRules key rules) desired).2.filterMap
          (deleteOwned? · .driftExtra)) := by
  refine (List.mergeSort_perm _ _).trans (List.Perm.append_right _ ?_)
  -- the wrong and the missing rules are gathered apart, here they come verdict by
  -- verdict
  show List.Perm (List.flatMap WrongRule.correction (List.filterMap _ _) ++
    List.map _ (List.filterMap _ _)) _
  generalize (matchAll key rules (ownedRules key rules) desired).1 = verdicts
  rw [List.perm_iff_count]
  intro c
  induction verdicts with
  | nil => rfl
  | cons v verdicts ih =>
      rcases v with ⟨d, _ | _ | w⟩
      · simpa [operations] using ih
      · simp only [List.filterMap_cons, List.map_cons, List.flatMap_cons, operations,
          List.count_append, List.count_cons, List.count_nil] at ih ⊢
        omega
      · simp only [List.filterMap_cons, List.flatMap_cons, operations,
          List.count_append] at ih ⊢
        omega

/-- **The correction of drift settles what is asked for**, with the hosts that the
matching finds. -/
theorem settles_of_asked (reference : ObjectReference) (hasked : Asked key desired)
    (hnd : (ids rules).Nodup) :
    Settles key rules (hosts key rules (ownedRules key rules) desired)
      (compare key reference desired rules).correctionPlan := by
  have howned : ∀ r ∈ ownedRules key rules, r ∈ rules ∧ r.isOwnedBy key = true :=
    fun r hr => List.mem_filter.mp hr
  obtain ⟨hfits, htargets, hrewrites, hcreates, hfree, hleft⟩ :=
    matchAll_settles hasked.owner howned (hnd.sublist (List.filter_sublist.map _))
  have hperm := correctionPlan_perm key reference desired rules
  obtain ⟨hdeletions, hnorewrites, hnocreations⟩ := parts_deleteOwned .driftExtra hleft
  refine ⟨?_, ?_, hfits, ?_, ?_, ?_⟩
  · intro op hop hk
    rcases List.mem_append.mp (hperm.mem_iff.mp hop) with hop | hop
    · exact htargets op hop hk
    · obtain ⟨r, -, hdelete⟩ := List.mem_filterMap.mp hop
      obtain ⟨o, -, rfl⟩ := Option.map_eq_some_iff.mp hdelete
      rfl
  · have hslots := hasked.slots_nodup
    have hfst : (hosts key rules (ownedRules key rules) desired).map Prod.fst = desired :=
      map_fst_hosts
    rw [← hfst, List.map_map] at hslots
    exact hslots
  · have hparts := hperm.filterMap Operation.rewrite?
    unfold rewrites at hrewrites hnorewrites ⊢
    rw [List.filterMap_append, hrewrites, hnorewrites, List.append_nil] at hparts
    exact hparts
  · have hparts := hperm.filterMap Operation.creation?
    unfold creations at hcreates hnocreations ⊢
    rw [List.filterMap_append, hcreates, hnocreations, List.append_nil] at hparts
    exact hparts
  · have hparts := hperm.filterMap deleted?
    unfold deletions at hfree hdeletions ⊢
    rw [List.filterMap_append, hdeletions] at hparts
    exact hfree.trans (List.Perm.append (List.Perm.refl _) hparts.symm)

theorem settles_hosts (reference : ObjectReference) (hwanted : Wanted key desired)
    (hnd : (ids rules).Nodup) :
    Settles key rules (hosts key rules (ownedRules key rules) desired)
      (compare key reference desired rules).correctionPlan :=
  settles_of_asked reference hwanted.asked hnd

theorem settles_correctionPlan (reference : ObjectReference)
    (hwanted : Wanted key desired) (hnd : (ids rules).Nodup) :
    ∃ hosts : List Hosting, hosts.map Prod.fst = desired ∧
      Settles key rules hosts (compare key reference desired rules).correctionPlan :=
  ⟨_, map_fst_hosts, settles_hosts reference hwanted hnd⟩

/-! ## Nothing is left to correct -/

/-- Where the free rules are one for each wanted rule and each as wanted, every
verdict is right and no rule is left. -/
theorem matchAll_of_met (hnd : (ids free).Nodup)
    (hslots : (desired.map DesiredRule.slot).Nodup)
    (hfree : (free.map RouterRule.slot).Perm (desired.map DesiredRule.slot))
    (hmet : ∀ r ∈ free, ∀ d ∈ desired, r.slot = d.slot → mismatches d r = []) :
    matchAll key rules free desired = (desired.map fun d => (d, .right), []) := by
  induction desired generalizing free with
  | nil =>
      have hnil : free = [] := List.map_eq_nil_iff.mp hfree.eq_nil
      rw [hnil]
      rfl
  | cons d desired ih =>
      rw [List.map_cons, List.nodup_cons] at hslots
      obtain ⟨s, hs, hslot⟩ := List.mem_map.mp (hfree.mem_iff.mpr List.mem_cons_self)
      cases hfind : free.find? fun r => r.slot == d.slot with
      | none => exact absurd (List.find?_eq_none.mp hfind s hs) (by simp [hslot])
      | some r =>
          have hr := List.mem_of_find?_eq_some hfind
          have hrslot : r.slot = d.slot := by simpa using List.find?_some hfind
          have hright := hmet r hr d List.mem_cons_self hrslot
          have hmatch : matchRule key rules free d = (.right, without r.id free) := by
            unfold matchRule
            rw [hfind]
            simp only [hright]
            rfl
          have hleft : ((without r.id free).map RouterRule.slot).Perm
              (desired.map DesiredRule.slot) := by
            have hperm :=
              ((perm_cons_without hnd hr).symm.map RouterRule.slot).trans hfree
            rw [List.map_cons, List.map_cons, hrslot] at hperm
            exact (List.perm_cons d.slot).mp hperm
          have hrest := ih (hnd.sublist ids_without_sublist) hslots.2 hleft
            fun r' hr' d' hd' =>
              hmet r' (mem_without.mp hr').1 d' (List.mem_cons_of_mem _ hd')
          unfold matchAll
          rw [hmatch]
          simp only [hrest]
          rfl

/-- **Where the Service owns what it asks for, nothing has come apart.** -/
theorem compare_of_asked (reference : ObjectReference) (hasked : Asked key desired)
    (hnd : (ids rules).Nodup) (h : Converged key desired rules) :
    let drift := compare key reference desired rules
    drift.missing = [] ∧ drift.wrong = [] ∧ drift.extra = [] := by
  have hall : matchAll key rules (ownedRules key rules) desired =
      (desired.map fun d => (d, .right), []) := by
    refine matchAll_of_met (hnd.sublist (List.filter_sublist.map _))
      hasked.slots_nodup h.slots ?_
    intro r hr d hd hslot
    obtain ⟨d', hd', hmeets⟩ := h.meets r hr
    obtain rfl := hasked.eq_of_slot_eq hd' hd (hmeets.slot.symm.trans hslot)
    refine mismatches_eq_nil_iff.mpr ⟨?_, hmeets⟩
    rw [hasked.owner d' hd']
    exact (List.mem_filter.mp hr).2
  simp only [compare, hall]
  exact ⟨by simp, by simp, trivial⟩

theorem compare_of_converged (reference : ObjectReference)
    (hwanted : Wanted key desired) (hnd : (ids rules).Nodup)
    (h : Converged key desired rules) :
    let drift := compare key reference desired rules
    drift.missing = [] ∧ drift.wrong = [] ∧ drift.extra = [] :=
  compare_of_asked reference hwanted.asked hnd h

theorem calm_of_asked (reference : ObjectReference) (hasked : Asked key desired)
    (hnd : (ids rules).Nodup) (h : Converged key desired rules) :
    (compare key reference desired rules).any = false := by
  obtain ⟨hmissing, hwrong, hextra⟩ := compare_of_asked reference hasked hnd h
  unfold any
  rw [hmissing, hwrong, hextra]
  rfl

theorem calm_of_converged (reference : ObjectReference) (hwanted : Wanted key desired)
    (hnd : (ids rules).Nodup) (h : Converged key desired rules) :
    (compare key reference desired rules).any = false :=
  calm_of_asked reference hwanted.asked hnd h

theorem correctionPlan_of_calm {drift : Drift} (hcalm : drift.any = false) :
    drift.correctionPlan = [] := by
  unfold any at hcalm
  simp only [Bool.not_eq_false', Bool.and_eq_true, List.isEmpty_iff] at hcalm
  obtain ⟨⟨hmissing, hwrong⟩, hextra⟩ := hcalm
  unfold correctionPlan Operation.sequence
  rw [hmissing, hwrong, hextra]
  exact List.mergeSort_nil

/-! ## Convergence -/

/-- **The correction of drift converges.** The Service owns afterwards what it
wants, rules of others on slots that are not wanted are as they were, and nothing
has come apart any more. -/
theorem correctionPlan_converges {fresh : Nat → String} (reference : ObjectReference)
    (hkey : key.Valid) (hwanted : Wanted key desired) (hnd : (ids rules).Nodup)
    (hfresh : Fresh fresh 0 rules) :
    let after :=
      applyAll fresh 0 rules (compare key reference desired rules).correctionPlan
    let again := compare key reference desired after
    Converged key desired after ∧
    (∀ r ∈ rules, r.isOwnedBy key = false → (∀ d ∈ desired, d.slot ≠ r.slot) →
      r ∈ after) ∧
    again.missing = [] ∧ again.wrong = [] ∧ again.extra = [] := by
  intro after again
  obtain ⟨hosts, hfst, hsettles⟩ := settles_correctionPlan reference hwanted hnd
  obtain ⟨hconverged, hothers, -⟩ := hsettles.outcome hkey hwanted hnd hfst hfresh
  have hafter : (ids after).Nodup := nodup_ids_applyAll hnd (hsettles.grounded hnd) hfresh
  refine ⟨hconverged, ?_, compare_of_converged reference hwanted hafter hconverged⟩
  intro r hr hforeign hslot
  have hspared : r ∈ spared key rules hosts := by
    refine List.mem_filter.mpr ⟨hr, ?_⟩
    rw [hforeign, Bool.not_false, Bool.true_and, decide_eq_true_eq]
    intro hhost
    obtain ⟨⟨d, o⟩, hmem, rfl⟩ := List.mem_filterMap.mp hhost
    have hd : d ∈ desired := hfst ▸ List.mem_map_of_mem hmem
    exact hslot d hd (hsettles.fits d r hmem).2.symm
  exact (List.mem_filter.mp (hothers.mem_iff.mpr hspared)).1

open Sample in
theorem correctionPlan_converges_sample :
    let after := applyAll Sample.fresh 0 Sample.rules
      (compare Sample.key default Sample.desired Sample.rules).correctionPlan
    let again := compare Sample.key default Sample.desired after
    Converged Sample.key Sample.desired after ∧
    (∀ r ∈ Sample.rules, r.isOwnedBy Sample.key = false →
      (∀ d ∈ Sample.desired, d.slot ≠ r.slot) → r ∈ after) ∧
    again.missing = [] ∧ again.wrong = [] ∧ again.extra = [] :=
  correctionPlan_converges default key_valid wanted (by decide) fresh_rules

end Drift

end PortForwarding
