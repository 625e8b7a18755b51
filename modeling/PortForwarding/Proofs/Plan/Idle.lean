import PortForwarding.Proofs.Plan.Adjustment
import PortForwarding.Proofs.Plan.Drift

/-!
# When there is nothing to do

A plan that settles what is asked for is empty only where each wanted rule has an
owned host that is as wanted and no owned rule is left over, that is, where the
owned rules are the wanted ones one for one (`Plan.Settles.paired`). Both plans
settle, so that both are empty in the same listings, and drift is found in all the
others.

What the comparison sees is less than what an update writes: nobody looks at the
interface. A rule that listens on another one counts as right, and stays where it
is (`idle_iff_paired`).
-/

namespace PortForwarding

open Listing Operation Plan Takeover

/-- The owned rules are the wanted ones one for one, each pair in the
relation `R`. -/
def Paired (R : DesiredRule → RouterRule → Prop) (key : ServiceKey)
    (desired : List DesiredRule) (rules : List RouterRule) : Prop :=
  ∃ rs : List RouterRule, rs.Perm (ownedRules key rules) ∧ List.Forall₂ R desired rs

section

variable {key : ServiceKey} {desired : List DesiredRule} {rules : List RouterRule}
  {hosts : List Hosting}

/-! ## Pairs -/

theorem exists_of_mem_forall₂ {R : DesiredRule → RouterRule → Prop}
    {rs : List RouterRule} {r : RouterRule} (h : List.Forall₂ R desired rs)
    (hr : r ∈ rs) : ∃ d ∈ desired, R d r := by
  induction h with
  | nil => exact absurd hr List.not_mem_nil
  | cons hpair _ ih =>
      rcases List.mem_cons.mp hr with rfl | hr
      · exact ⟨_, List.mem_cons_self, hpair⟩
      · obtain ⟨d, hd, hpair⟩ := ih hr
        exact ⟨d, List.mem_cons_of_mem _ hd, hpair⟩

theorem slots_of_forall₂ {rs : List RouterRule} (h : List.Forall₂ Meets desired rs) :
    rs.map RouterRule.slot = desired.map DesiredRule.slot := by
  induction h with
  | nil => rfl
  | cons hmeets _ ih => rw [List.map_cons, List.map_cons, hmeets.slot, ih]

theorem Paired.converged (h : Paired Meets key desired rules) :
    Converged key desired rules := by
  obtain ⟨rs, hperm, hpairs⟩ := h
  constructor
  · rw [← slots_of_forall₂ hpairs]
    exact (hperm.map _).symm
  · intro r hr
    obtain ⟨d, hd, hmeets⟩ := exists_of_mem_forall₂ hpairs (hperm.mem_iff.mpr hr)
    exact ⟨d, hd, hmeets⟩

/-! ## Plans that ask for nothing -/

/-- Where no host is overwritten and none is missing, the hosts are as wanted,
in turn. -/
theorem Hosting.forall₂_of_idle (hrewrites : hosts.filterMap Hosting.rewrite? = [])
    (hcreations : hosts.filterMap Hosting.creation? = []) :
    List.Forall₂ (fun d r => mismatches d r = []) (hosts.map Prod.fst)
      (Hosting.rules hosts) := by
  induction hosts with
  | nil => exact .nil
  | cons host hosts ih =>
      rcases host with ⟨d, _ | r⟩
      · simp [Hosting.creation?] at hcreations
      · by_cases hnil : mismatches d r = []
        · refine .cons hnil (ih ?_ ?_)
          · simpa [Hosting.rewrite?, hnil] using hrewrites
          · simpa [Hosting.creation?] using hcreations
        · simp [Hosting.rewrite?, hnil] at hrewrites

/-- **Where nothing is left to settle, the owned rules are the wanted ones one
for one.** -/
theorem Plan.Settles.paired (h : Settles key rules hosts [])
    (howner : ∀ d ∈ hosts.map Prod.fst, d.owner.key = key) :
    Paired Meets key (hosts.map Prod.fst) rules := by
  have hright := Hosting.forall₂_of_idle h.overwrites.symm.eq_nil h.creates.symm.eq_nil
  have howned : (Hosting.rules hosts).filter (RouterRule.isOwnedBy · key) =
      Hosting.rules hosts := by
    refine List.filter_eq_self.mpr fun r hr => ?_
    obtain ⟨d, hd, hnil⟩ := exists_of_mem_forall₂ hright hr
    rw [← howner d hd]
    exact (mismatches_eq_nil_iff.mp hnil).1
  have haccounted := h.accounted
  rw [howned] at haccounted
  refine ⟨Hosting.rules hosts, ?_, hright.imp fun d r hnil =>
    (mismatches_eq_nil_iff.mp hnil).2⟩
  simpa [deletions] using haccounted.symm

/-! ## The two plans -/

theorem Drift.paired_of_correctionPlan (reference : ObjectReference)
    (hasked : Asked key desired) (hnd : (ids rules).Nodup)
    (hplan : (Drift.compare key reference desired rules).correctionPlan = []) :
    Paired Meets key desired rules := by
  have hsettles := Drift.settles_of_asked reference hasked hnd
  rw [hplan] at hsettles
  have hpaired := hsettles.paired
  rw [Drift.map_fst_hosts] at hpaired
  exact hpaired hasked.owner

/-- **No drift is found exactly where the owned rules are the wanted ones.** -/
theorem Drift.calm_iff_paired (reference : ObjectReference)
    (hasked : Asked key desired) (hnd : (ids rules).Nodup) :
    (Drift.compare key reference desired rules).any = false ↔
      Paired Meets key desired rules := by
  constructor
  · intro hcalm
    exact paired_of_correctionPlan reference hasked hnd (correctionPlan_of_calm hcalm)
  · intro hpaired
    exact calm_of_asked reference hasked hnd hpaired.converged

/-- **Nothing is to be corrected exactly where the owned rules are the
wanted ones.** -/
theorem Drift.correctionPlan_eq_nil_iff (reference : ObjectReference)
    (hasked : Asked key desired) (hnd : (ids rules).Nodup) :
    (Drift.compare key reference desired rules).correctionPlan = [] ↔
      Paired Meets key desired rules := by
  constructor
  · exact paired_of_correctionPlan reference hasked hnd
  · intro hpaired
    exact correctionPlan_of_calm ((calm_iff_paired reference hasked hnd).mpr hpaired)

/-- **Nothing is planned after a change exactly where the owned rules are the
wanted ones.** -/
theorem planFor_eq_nil_iff (hasked : Asked key desired) :
    planFor key desired rules (revalidate (detect key desired rules) rules) = [] ↔
      Paired Meets key desired rules := by
  rw [revalidate_detect]
  constructor
  · intro hplan
    have hsettles := hasked.settles_planFor rules
    rw [hplan] at hsettles
    have hpaired := hsettles.paired
    rw [hosts_map_fst] at hpaired
    exact hpaired hasked.owner
  · intro hpaired
    rw [hasked.detect_of_converged hpaired.converged]
    exact hasked.planFor_of_converged hpaired.converged

/-! ## One need to act -/

/-- **Both ways of planning see the same need to act.** Drift is found exactly
where its correction has something to do, and this exactly where the plan after a
change has. -/
theorem need_to_act (reference : ObjectReference) (hasked : Asked key desired)
    (hnd : (ids rules).Nodup) :
    let drift := Drift.compare key reference desired rules
    let plan := planFor key desired rules (revalidate (detect key desired rules) rules)
    (drift.any = true ↔ drift.correctionPlan ≠ []) ∧
        (drift.correctionPlan ≠ [] ↔ plan ≠ []) := by
  have hcalm := Drift.calm_iff_paired reference hasked hnd
  have hcorrection := Drift.correctionPlan_eq_nil_iff reference hasked hnd
  have hplan :
    planFor key desired rules (revalidate (detect key desired rules) rules) = [] ↔
      Paired Meets key desired rules := planFor_eq_nil_iff hasked
  refine ⟨?_, not_congr (hcorrection.trans hplan.symm)⟩
  rw [← Bool.not_eq_false]
  exact not_congr (hcalm.trans hcorrection.symm)

open Sample in
theorem need_to_act_sample :
    let drift := Drift.compare Sample.key default Sample.desired Sample.rules
    let plan := planFor Sample.key Sample.desired Sample.rules
      (revalidate (detect Sample.key Sample.desired Sample.rules) Sample.rules)
    (drift.any = true ↔ drift.correctionPlan ≠ []) ∧
        (drift.correctionPlan ≠ [] ↔ plan ≠ []) :=
  need_to_act default wanted.asked (by decide)

/-! ## What nobody looks at -/

/-- A rule that meets what is wanted is exactly that where it listens on the
same interface. -/
theorem Meets.spec_eq_iff {d : DesiredRule} {r : RouterRule} (h : Meets d r) :
    r.spec = d.spec ↔ r.spec.interface = d.spec.interface := by
  constructor
  · intro hspec
    rw [hspec]
  · intro hinterface
    have hslot : r.spec.slot = d.spec.slot := h.slot
    have hname := h.name
    have hdestination := h.destination
    have henabled := h.enabled
    have hsource := h.source
    cases hr : r.spec
    cases hd : d.spec
    simp_all

/-- Paired rules are exactly the wanted ones where each listens on the interface
of the rule that is wanted on its slot. -/
theorem Paired.exact_iff (hasked : Asked key desired)
    (h : Paired Meets key desired rules) :
    Paired (fun d r => r.spec = d.spec) key desired rules ↔
      ∀ d ∈ desired, ∀ r ∈ ownedRules key rules, r.slot = d.slot →
        r.spec.interface = d.spec.interface := by
  constructor
  · rintro ⟨rs, hperm, hpairs⟩ d hd r hr hslot
    obtain ⟨d', hd', hspec⟩ := exists_of_mem_forall₂ hpairs (hperm.mem_iff.mpr hr)
    -- the rule has its pair, and on its slot only one rule is wanted
    have hslot' : r.slot = d'.slot := congrArg RuleSpec.slot hspec
    obtain rfl := hasked.eq_of_slot_eq hd' hd (hslot'.symm.trans hslot)
    rw [hspec]
  · intro hinterfaces
    obtain ⟨rs, hperm, hpairs⟩ := h
    obtain ⟨hlength, hzip⟩ := List.forall₂_iff_zip.mp hpairs
    refine ⟨rs, hperm, List.forall₂_iff_zip.mpr ⟨hlength, fun {d r} hmem => ?_⟩⟩
    have hmeets := hzip hmem
    obtain ⟨hd, hr⟩ := List.of_mem_zip hmem
    exact hmeets.spec_eq_iff.mpr (hinterfaces d hd r (hperm.mem_iff.mp hr) hmeets.slot)

/-- **What it means that there is nothing to do.** No drift is found, and nothing
is planned, exactly where the owned rules are the wanted ones one for one in all
settings but the interface; they are so in every setting only where each listens
on the interface of the wanted rule. -/
theorem idle_iff_paired (reference : ObjectReference) (hasked : Asked key desired)
    (hnd : (ids rules).Nodup) :
    let plan :=
      planFor key desired rules (revalidate (detect key desired rules) rules)
    ((Drift.compare key reference desired rules).any = false ↔
      Paired Meets key desired rules) ∧
    (plan = [] ↔ Paired Meets key desired rules) ∧
    (Paired Meets key desired rules →
      (Paired (fun d r => r.spec = d.spec) key desired rules ↔
        ∀ d ∈ desired, ∀ r ∈ ownedRules key rules, r.slot = d.slot →
          r.spec.interface = d.spec.interface)) :=
  ⟨Drift.calm_iff_paired reference hasked hnd, planFor_eq_nil_iff hasked, fun hpaired =>
    hpaired.exact_iff hasked⟩

end

/-! ## A rule on another interface -/

namespace Sample

def elsewhere : List RouterRule :=
  [⟨"a", { (wish "http" 80 8080).spec with interface := "lan" }⟩]

theorem asked_http : Asked key [wish "http" 80 8080] :=
  ⟨by decide, by decide⟩

theorem paired_elsewhere : Paired Meets key [wish "http" 80 8080] elsewhere :=
  ⟨elsewhere, by decide, .cons ⟨rfl, rfl, rfl, rfl, rfl⟩ .nil⟩

end Sample

open Sample in
theorem idle_iff_paired_elsewhere :
    let plan := planFor key [wish "http" 80 8080] elsewhere
      (revalidate (detect key [wish "http" 80 8080] elsewhere) elsewhere)
    ((Drift.compare key default [wish "http" 80 8080] elsewhere).any = false ↔
      Paired Meets key [wish "http" 80 8080] elsewhere) ∧
    (plan = [] ↔ Paired Meets key [wish "http" 80 8080] elsewhere) ∧
    (Paired Meets key [wish "http" 80 8080] elsewhere →
      (Paired (fun d r => r.spec = d.spec) key [wish "http" 80 8080] elsewhere ↔
        ∀ d ∈ [wish "http" 80 8080], ∀ r ∈ ownedRules key elsewhere, r.slot = d.slot →
          r.spec.interface = d.spec.interface)) :=
  idle_iff_paired default asked_http (by decide)

open Sample in
/-- **A rule on another interface stays there.** It is owned and the only one, no
drift is found and nothing is planned, and yet it is not what is wanted. -/
theorem idle_elsewhere :
    let plan := planFor key [wish "http" 80 8080] elsewhere
      (revalidate (detect key [wish "http" 80 8080] elsewhere) elsewhere)
    key.Valid ∧ Wanted key [wish "http" 80 8080] ∧ (ids elsewhere).Nodup ∧
    (Drift.compare key default [wish "http" 80 8080] elsewhere).any = false ∧ plan = [] ∧
    ¬Paired (fun d r => r.spec = d.spec) key [wish "http" 80 8080] elsewhere := by
  intro plan
  refine ⟨key_valid, ⟨by decide, by decide, by decide, by decide⟩, by decide,
    (Drift.calm_iff_paired default asked_http (by decide)).mpr paired_elsewhere,
    (planFor_eq_nil_iff asked_http).mpr paired_elsewhere, ?_⟩
  rintro ⟨rs, hperm, hpairs⟩
  have hmem : ⟨"a", { (wish "http" 80 8080).spec with interface := "lan" }⟩ ∈ rs :=
    hperm.mem_iff.mpr (by decide)
  obtain ⟨d, hd, hspec⟩ := exists_of_mem_forall₂ hpairs hmem
  obtain rfl := List.mem_singleton.mp hd
  exact absurd hspec (by decide)

end PortForwarding
