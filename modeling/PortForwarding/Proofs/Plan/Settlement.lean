import Mathlib.Data.List.Perm.Subperm
import PortForwarding.Proofs.Plan.Balance
import PortForwarding.Proofs.Rule.Wanted

/-!
# Plans that settle what a Service wants

Both ways of planning, after a change and after a look for drift, come down to one
thing. Each wanted rule has a *host*: the rule of the router that becomes it, or
none. Owned rules without a guest are deleted, hosts that differ are overwritten,
and wanted rules without a host are created. `Settles` says so of a plan without
saying in which order or why.

- `Settles.grounded`: such a plan addresses rules that are there, and none twice.
- `Settles.applyAll_perm`: what the router holds after it, as a multiset.
- `Settles.outcome`: the Service then owns what it wants and nothing more.
-/

namespace PortForwarding

open Listing

/-- **The Service owns what it wants**: one rule on each wanted slot and none
elsewhere, each with the wanted settings. -/
structure Converged (key : ServiceKey) (desired : List DesiredRule)
    (rules : List RouterRule) :
    Prop where
  slots : ((ownedRules key rules).map RouterRule.slot).Perm (desired.map DesiredRule.slot)
  meets : ∀ r ∈ ownedRules key rules, ∃ d ∈ desired, Meets d r

/-- A wanted rule with the rule on the router that is to become it. -/
abbrev Hosting := DesiredRule × Option RouterRule

namespace Hosting

def kept? : Hosting → Option RouterRule
  | (d, some r) => if mismatches d r = [] then some r else none
  | (_, none) => none

/-- The host that is overwritten, with what is wanted in its place. -/
def rewrite? : Hosting → Option (RouterRule × DesiredRule)
  | (d, some r) => if mismatches d r = [] then none else some (r, d)
  | (_, none) => none

def creation? : Hosting → Option DesiredRule
  | (_, some _) => none
  | (d, none) => some d

def rules (hosts : List Hosting) : List RouterRule :=
  hosts.filterMap Prod.snd

theorem rules_perm (hosts : List Hosting) :
    (hosts.filterMap kept? ++ (hosts.filterMap rewrite?).map Prod.fst).Perm
      (rules hosts) := by
  rw [List.perm_iff_count]
  intro c
  induction hosts with
  | nil => rfl
  | cons host hosts ih =>
      unfold rules at ih ⊢
      rcases host with ⟨d, _ | r⟩
      · simpa only [List.filterMap_cons, kept?, rewrite?] using ih
      · by_cases h : mismatches d r = []
        · simp only [List.filterMap_cons, kept?, rewrite?, h, if_true, List.count_append,
            List.count_cons] at ih ⊢
          omega
        · simp only [List.filterMap_cons, kept?, rewrite?, h, if_false, List.map_cons,
            List.count_append, List.count_cons] at ih ⊢
          omega

/-- A host is on the slot of its guest, and a wanted rule without one comes to
its own. -/
theorem slots_perm {hosts : List Hosting}
    (hfits : ∀ d r, (d, some r) ∈ hosts → r.slot = d.slot) :
    ((hosts.filterMap kept?).map RouterRule.slot ++
      ((hosts.filterMap rewrite?).map (fun w => w.2.slot) ++
        (hosts.filterMap creation?).map DesiredRule.slot)).Perm
      (hosts.map fun host => host.1.slot) := by
  rw [List.perm_iff_count]
  intro c
  induction hosts with
  | nil => rfl
  | cons host hosts ih =>
      have hrest := ih fun d r hr => hfits d r (List.mem_cons_of_mem _ hr)
      rcases host with ⟨d, _ | r⟩
      · simp only [List.filterMap_cons, kept?, rewrite?, creation?, List.map_cons,
          List.count_append, List.count_cons] at hrest ⊢
        omega
      · have hslot := hfits d r List.mem_cons_self
        by_cases h : mismatches d r = []
        · simp only [List.filterMap_cons, kept?, rewrite?, creation?, h, if_true,
            List.map_cons, hslot, List.count_append, List.count_cons] at hrest ⊢
          omega
        · simp only [List.filterMap_cons, kept?, rewrite?, creation?, h, if_false,
            List.map_cons, List.count_append, List.count_cons] at hrest ⊢
          omega

/-- Hosts are on the slots of their guests, and so no rule is a host twice. -/
theorem rules_nodup {hosts : List Hosting}
    (hapart : (hosts.map fun host => host.1.slot).Nodup)
    (hfits : ∀ d r, (d, some r) ∈ hosts → r.slot = d.slot) :
    (rules hosts).Nodup := by
  have hsub : ((rules hosts).map RouterRule.slot).Sublist (hosts.map fun host =>
      host.1.slot) := by
    clear hapart
    induction hosts with
    | nil => exact List.Sublist.refl _
    | cons host hosts ih =>
        have hrest := ih fun d r hr => hfits d r (List.mem_cons_of_mem _ hr)
        rcases host with ⟨d, _ | r⟩
        · exact hrest.cons _
        · have hslot := hfits d r List.mem_cons_self
          simp only [rules, List.filterMap_cons, List.map_cons, hslot] at hrest ⊢
          exact hrest.cons_cons _
  exact (hapart.sublist hsub).of_map _

theorem mem_of_kept {hosts : List Hosting} {r : RouterRule}
    (h : r ∈ hosts.filterMap kept?) :
    ∃ d, (d, some r) ∈ hosts ∧ mismatches d r = [] := by
  obtain ⟨⟨d, _ | r'⟩, hmem, hkept⟩ := List.mem_filterMap.mp h
  · exact absurd hkept (by simp [kept?])
  · by_cases hnil : mismatches d r' = []
    · obtain rfl : r' = r := by simpa [kept?, hnil] using hkept
      exact ⟨d, hmem, hnil⟩
    · exact absurd hkept (by simp [kept?, hnil])

theorem mem_rewrites {hosts : List Hosting} {d : DesiredRule} {r : RouterRule} :
    (r, d) ∈ hosts.filterMap rewrite? ↔
      (d, some r) ∈ hosts ∧ mismatches d r ≠ [] := by
  constructor
  · intro h
    obtain ⟨⟨d', _ | r'⟩, hmem, hrewrite⟩ := List.mem_filterMap.mp h
    · exact absurd hrewrite (by simp [rewrite?])
    · by_cases hnil : mismatches d' r' = []
      · exact absurd hrewrite (by simp [rewrite?, hnil])
      · obtain ⟨rfl, rfl⟩ : r' = r ∧ d' = d := by simpa [rewrite?, hnil] using hrewrite
        exact ⟨hmem, hnil⟩
  · rintro ⟨hmem, hne⟩
    exact List.mem_filterMap.mpr ⟨(d, some r), hmem, by simp [rewrite?, hne]⟩

theorem mem_creations {hosts : List Hosting} {d : DesiredRule} :
    d ∈ hosts.filterMap creation? ↔ (d, none) ∈ hosts := by
  constructor
  · intro h
    obtain ⟨⟨d', _ | r'⟩, hmem, hcreation⟩ := List.mem_filterMap.mp h
    · obtain rfl := Option.some.inj hcreation
      exact hmem
    · exact absurd hcreation (by simp [creation?])
  · intro h
    exact List.mem_filterMap.mpr ⟨(d, none), h, rfl⟩

end Hosting

namespace Plan

open Operation

/-- The plan overwrites, creates and deletes what these hosts ask for. -/
structure Settles (key : ServiceKey) (rules : List RouterRule) (hosts : List Hosting)
    (plan : List Operation) : Prop where
  targeted : ∀ op ∈ plan, op.kind ≠ .create → op.existing.isSome
  /-- A wanted rule has at most one host, on its slot. -/
  apart : (hosts.map fun host => host.1.slot).Nodup
  fits : ∀ d r, (d, some r) ∈ hosts → r ∈ rules ∧ r.slot = d.slot
  overwrites : (rewrites plan).Perm (hosts.filterMap Hosting.rewrite?)
  creates : (creations plan).Perm (hosts.filterMap Hosting.creation?)
  /-- An owned rule is a host or goes. -/
  accounted : (ownedRules key rules).Perm
    ((Hosting.rules hosts).filter (RouterRule.isOwnedBy · key) ++ deletions plan)

def spared (key : ServiceKey) (rules : List RouterRule) (hosts : List Hosting) :
    List RouterRule :=
  rules.filter fun r => !r.isOwnedBy key && decide (r ∉ Hosting.rules hosts)

theorem targets_perm (plan : List Operation) :
    (deletions plan ++ (rewrites plan).map Prod.fst).Perm (targets plan) := by
  rw [List.perm_iff_count]
  intro c
  induction plan with
  | nil => rfl
  | cons op plan ih =>
      unfold deletions rewrites targets at ih ⊢
      cases hk : op.kind <;> cases hex : op.existing <;>
        simp only [List.filterMap_cons, deleted?, rewrite?, target?, hk, hex,
          Option.map_some, Option.map_none, List.map_cons, List.count_append,
          List.count_cons] at ih ⊢ <;> omega

/-- Owned rules can all be deleted, and that is all that is done with them. -/
theorem parts_deleteOwned {key : ServiceKey} {rules : List RouterRule}
    (reason : Reason) (h : ∀ r ∈ rules, r.isOwnedBy key = true) :
    deletions (rules.filterMap (deleteOwned? · reason)) = rules ∧
    rewrites (rules.filterMap (deleteOwned? · reason)) = [] ∧
    creations (rules.filterMap (deleteOwned? · reason)) = [] := by
  induction rules with
  | nil => exact ⟨rfl, rfl, rfl⟩
  | cons r rules ih =>
      obtain ⟨hdeletions, hrewrites, hcreations⟩ := ih fun r hr =>
        h r (List.mem_cons_of_mem _ hr)
      obtain ⟨o, ho, -⟩ := RouterRule.isOwnedBy_iff.mp (h r List.mem_cons_self)
      have hdelete : deleteOwned? r reason = some (delete ⟨o, r.spec⟩ r reason) := by
        simp [deleteOwned?, DesiredRule.ofRouterRule?, ho]
      have hcons : (r :: rules).filterMap (deleteOwned? · reason) =
          delete ⟨o, r.spec⟩ r reason :: rules.filterMap (deleteOwned? · reason) :=
        List.filterMap_cons_some hdelete
      rw [hcons]
      exact ⟨congrArg (r :: ·) hdeletions, hrewrites, hcreations⟩

namespace Settles

variable {key : ServiceKey} {desired : List DesiredRule} {rules : List RouterRule}
  {hosts : List Hosting} {plan : List Operation} {fresh : Nat → String} {start : Nat}

theorem hosts_nodup (h : Settles key rules hosts plan) :
    (Hosting.rules hosts).Nodup :=
  Hosting.rules_nodup h.apart fun d r hr => (h.fits d r hr).2

theorem mem_rules_of_host {r : RouterRule} (h : Settles key rules hosts plan)
    (hr : r ∈ Hosting.rules hosts) : r ∈ rules := by
  obtain ⟨⟨d, o⟩, hmem, rfl⟩ := List.mem_filterMap.mp hr
  exact (h.fits d r hmem).1

theorem others_perm (hnd : (ids rules).Nodup) (h : Settles key rules hosts plan) :
    (rules.filter fun r => !r.isOwnedBy key).Perm
      (spared key rules hosts ++ (Hosting.rules hosts).filter fun r =>
        !r.isOwnedBy key) := by
  have hrules : rules.Nodup := hnd.of_map _
  have hsplit := List.filter_append_perm (fun r => decide (r ∉ Hosting.rules hosts))
    (rules.filter fun r => !r.isOwnedBy key)
  refine hsplit.symm.trans (List.Perm.append ?_ ?_)
  · unfold spared
    rw [List.filter_filter]
    exact List.Perm.of_eq (List.filter_congr fun r _ => Bool.and_comm _ _)
  · refine (List.perm_ext_iff_of_nodup ((hrules.filter _).filter _)
      (h.hosts_nodup.filter _)).mpr ?_
    intro r
    simp only [List.mem_filter, decide_not, Bool.not_not, decide_eq_true_eq]
    constructor
    · rintro ⟨⟨-, hr⟩, hhost⟩
      exact ⟨hhost, hr⟩
    · rintro ⟨hhost, hr⟩
      exact ⟨⟨h.mem_rules_of_host hhost, hr⟩, hhost⟩

/-- **Every rule on the router is a host, deleted or spared.** -/
theorem rules_perm (hnd : (ids rules).Nodup) (h : Settles key rules hosts plan) :
    rules.Perm (spared key rules hosts ++
      (Hosting.rules hosts ++ deletions plan)) := by
  have hforeign := h.others_perm hnd
  have hall := List.filter_append_perm (fun r => r.isOwnedBy key) rules
  have hhosts := List.filter_append_perm (fun r => r.isOwnedBy key) (Hosting.rules hosts)
  have howned := h.accounted
  unfold ownedRules at howned
  rw [List.perm_iff_count] at hforeign hall hhosts howned ⊢
  intro c
  have h₁ := hforeign c
  have h₂ := hall c
  have h₃ := hhosts c
  have h₄ := howned c
  simp only [List.count_append] at h₁ h₂ h₃ h₄ ⊢
  omega

theorem mem_deletions_iff {r : RouterRule} (hnd : (ids rules).Nodup)
    (h : Settles key rules hosts plan) :
    r ∈ deletions plan ↔ r ∈ ownedRules key rules ∧ r ∉ Hosting.rules hosts := by
  have howned : (ownedRules key rules).Nodup := (hnd.of_map _).filter _
  have hsplit := h.accounted.nodup_iff.mp howned
  rw [List.nodup_append] at hsplit
  rw [h.accounted.mem_iff, List.mem_append, List.mem_filter]
  constructor
  · intro hr
    refine ⟨Or.inr hr, fun hhost => ?_⟩
    have hkey :=
      (List.mem_filter.mp (h.accounted.mem_iff.mpr
      (List.mem_append_right _ hr))).2
    exact hsplit.2.2 r (List.mem_filter.mpr ⟨hhost, hkey⟩) r hr rfl
  · rintro ⟨⟨hhost, -⟩ | hr, hnot⟩
    · exact absurd hhost hnot
    · exact hr

/-- The rules that stay as they are, and those that the plan addresses. -/
theorem rules_perm_targets (hnd : (ids rules).Nodup)
    (h : Settles key rules hosts plan) :
    rules.Perm ((spared key rules hosts ++ hosts.filterMap Hosting.kept?) ++
      targets plan) := by
  -- the plan's targets are its deletions and the hosts that are not kept
  have hrules := h.rules_perm hnd
  have hhosts := Hosting.rules_perm hosts
  have hrewritten := h.overwrites.map Prod.fst
  have htargets := targets_perm plan
  rw [List.perm_iff_count] at hrules hhosts hrewritten htargets ⊢
  intro c
  have h₁ := hrules c
  have h₂ := hhosts c
  have h₃ := hrewritten c
  have h₄ := htargets c
  simp only [List.count_append] at h₁ h₂ h₃ h₄ ⊢
  omega

/-- **The plan addresses rules that are there, and none of them twice.** -/
theorem grounded (hnd : (ids rules).Nodup) (h : Settles key rules hosts plan) :
    Grounded rules plan := by
  have hperm := h.rules_perm_targets hnd
  constructor
  · intro op hop hk
    obtain ⟨e, hex⟩ := Option.isSome_iff_exists.mp (h.targeted op hop hk)
    have htarget : e ∈ targets plan :=
      List.mem_filterMap.mpr ⟨op, hop, (target?_eq_existing hk).trans hex⟩
    exact ⟨e, hperm.mem_iff.mpr (List.mem_append_right _ htarget), hex⟩
  · have hids := (hperm.map RouterRule.id).nodup_iff.mp hnd
    rw [List.map_append, List.nodup_append] at hids
    exact hids.2.1

/-- The hosts that were right, the others as they were overwritten, and the
created rules are what is new or kept for the Service. -/
theorem applyAll_perm_parts (hnd : (ids rules).Nodup)
    (h : Settles key rules hosts plan) (hfresh : Fresh fresh start rules) :
    ∃ created : List RouterRule,
      (specs created).Perm ((hosts.filterMap Hosting.creation?).map
        DesiredRule.spec) ∧
      (applyAll fresh start rules plan).Perm (spared key rules hosts ++
        (hosts.filterMap Hosting.kept? ++
          ((hosts.filterMap Hosting.rewrite?).map rewritten ++ created))) := by
  obtain ⟨created, hspecs, -, hafter⟩ := Plan.applyAll_perm hnd (h.grounded hnd) hfresh
  refine ⟨created, ?_, ?_⟩
  · rw [hspecs]
    exact h.creates.map _
  · have hrules := h.rules_perm_targets hnd
    have htargets := targets_perm plan
    have hrewritten := h.overwrites.map rewritten
    rw [List.perm_iff_count] at hrules htargets hrewritten hafter ⊢
    intro c
    have h₁ := hrules c
    have h₂ := htargets c
    have h₃ := hrewritten c
    have h₄ := hafter c
    simp only [List.count_append] at h₁ h₂ h₃ h₄ ⊢
    omega

/-- **What the router holds after the plan**: the rules of others that are
no hosts, and one rule for each wanted one, with its settings. A host keeps
its identifier. -/
theorem applyAll_perm (hnd : (ids rules).Nodup) (h : Settles key rules hosts plan)
    (hfresh : Fresh fresh start rules) :
    ∃ placed : List RouterRule,
      (applyAll fresh start rules plan).Perm (spared key rules hosts ++ placed) ∧
      (placed.map RouterRule.slot).Perm (hosts.map fun host => host.1.slot) ∧
      (∀ r ∈ placed, ∃ host ∈ hosts, Meets host.1 r) ∧
      ∀ d r, (d, some r) ∈ hosts → mismatches d r ≠ [] → ⟨r.id, d.spec⟩ ∈ placed := by
  obtain ⟨created, hspecs, hafter⟩ := h.applyAll_perm_parts hnd hfresh
  refine ⟨_, hafter, ?_, ?_, ?_⟩
  · have hslots := Hosting.slots_perm fun d r hr => (h.fits d r hr).2
    have hcreated : (created.map RouterRule.slot).Perm
        ((hosts.filterMap Hosting.creation?).map DesiredRule.slot) := by
      have hmap := hspecs.map RuleSpec.slot
      unfold specs at hmap
      rw [List.map_map, List.map_map] at hmap
      exact hmap
    rw [List.map_append, List.map_append, List.map_map]
    exact ((List.Perm.refl _).append ((List.Perm.refl _).append hcreated)).trans hslots
  · intro r hr
    rcases List.mem_append.mp hr with hr | hr
    · obtain ⟨d, hmem, hnil⟩ := Hosting.mem_of_kept hr
      exact ⟨_, hmem, (mismatches_eq_nil_iff.mp hnil).2⟩
    · rcases List.mem_append.mp hr with hr | hr
      · obtain ⟨⟨e, d⟩, hw, rfl⟩ := List.mem_map.mp hr
        exact ⟨_, (Hosting.mem_rewrites.mp hw).1, Meets.of_spec_eq rfl⟩
      · obtain ⟨d, hd, heq⟩ :=
          List.mem_map.mp (hspecs.mem_iff.mp (List.mem_map_of_mem hr))
        exact ⟨_, Hosting.mem_creations.mp hd, Meets.of_spec_eq heq.symm⟩
  · intro d r hmem hne
    have hw := Hosting.mem_rewrites.mpr ⟨hmem, hne⟩
    exact List.mem_append_right _ (List.mem_append_left _
      (List.mem_map.mpr ⟨(r, d), hw, rfl⟩))

end Settles

/-! ## What the Service and the others have then -/

/-- **A plan that settles what a Service wants converges.** The Service owns
afterwards what it wants; what others own is what they owned less the hosts; a
host that was not right is there under its identifier as it was wanted. -/
theorem Settles.outcome {key : ServiceKey} {desired : List DesiredRule}
    {rules : List RouterRule} {hosts : List Hosting} {plan : List Operation}
    {fresh : Nat → String} {start : Nat} (hkey : key.Valid)
    (hwanted : Wanted key desired) (hnd : (ids rules).Nodup)
    (hhosts : hosts.map Prod.fst = desired) (h : Settles key rules hosts plan)
    (hfresh : Fresh fresh start rules) :
    Converged key desired (applyAll fresh start rules plan) ∧
    ((applyAll fresh start rules plan).filter fun r => !r.isOwnedBy key).Perm
      (spared key rules hosts) ∧
    ∀ d r, (d, some r) ∈ hosts → mismatches d r ≠ [] →
      ⟨r.id, d.spec⟩ ∈ applyAll fresh start rules plan := by
  obtain ⟨placed, hafter, hslots, hmeets, hkept⟩ := h.applyAll_perm hnd hfresh
  have hwants : ∀ r ∈ placed, ∃ d ∈ desired, Meets d r := by
    intro r hr
    obtain ⟨host, hmem, hmeet⟩ := hmeets r hr
    exact ⟨host.1, hhosts ▸ List.mem_map_of_mem hmem, hmeet⟩
  have hplaced : ∀ r ∈ placed, r.isOwnedBy key = true := by
    intro r hr
    obtain ⟨d, hd, hmeet⟩ := hwants r hr
    exact hwanted.isOwnedBy hkey hd hmeet.name
  -- ownership is read off the names, which tells the placed rules from the spared
  -- ones
  have hspared : ∀ r ∈ spared key rules hosts, r.isOwnedBy key = false := by
    intro r hr
    simpa using (Bool.and_eq_true_iff.mp (List.mem_filter.mp hr).2).1
  have howned : (ownedRules key (applyAll fresh start rules plan)).Perm placed := by
    refine (hafter.filter _).trans (List.Perm.of_eq ?_)
    rw [List.filter_append, List.filter_eq_self.mpr hplaced,
      List.filter_eq_nil_iff.mpr fun r hr => by simp [hspared r hr]]
    rfl
  refine ⟨⟨?_, ?_⟩, ?_, ?_⟩
  · refine (howned.map _).trans (hslots.trans (List.Perm.of_eq ?_))
    rw [← hhosts, List.map_map]
    rfl
  · exact fun r hr => hwants r (howned.mem_iff.mp hr)
  · refine (hafter.filter _).trans (List.Perm.of_eq ?_)
    rw [List.filter_append, List.filter_eq_self.mpr fun r hr => by simp [hspared r hr],
      List.filter_eq_nil_iff.mpr fun r hr => by simp [hplaced r hr], List.append_nil]
  · intro d r hmem hne
    exact hafter.mem_iff.mpr (List.mem_append_right _ (hkept d r hmem hne))

end Plan

theorem Sample.fresh_injective : Function.Injective Sample.fresh := by
  intro m n h
  have hlist := congrArg String.toList h
  unfold fresh at hlist
  rw [String.toList_ofList, String.toList_ofList] at hlist
  simpa using congrArg List.length hlist

theorem Sample.fresh_rules : Plan.Fresh Sample.fresh 0 Sample.rules := by
  refine ⟨fresh_injective, fun n _ hmem => ?_⟩
  have hids : ids Sample.rules = ["a", "b", "c", "d"] := rfl
  have hall : ∀ s ∈ ids Sample.rules, s.toList ≠ [] ∧ 'i' ∉ s.toList := by
    rw [hids]
    decide
  obtain ⟨hne, hnot⟩ := hall _ hmem
  unfold fresh at hne hnot
  rw [String.toList_ofList] at hne hnot
  cases n with
  | zero => exact hne rfl
  | succ n => exact hnot List.mem_cons_self

end PortForwarding
