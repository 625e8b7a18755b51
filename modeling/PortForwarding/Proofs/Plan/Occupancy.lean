import PortForwarding.Proofs.Plan.Execution
import PortForwarding.Proofs.Plan.WellFormed
import PortForwarding.Proofs.Script.Ensures

/-!
# One rule on a slot, all the way

A router takes no second rule on a slot. Where no slot has two rules to begin
with, none ever has while a plan is carried out and undone, whatever fails on the
way (`slots_stay_apart`).

What is known of an execution so far is how it ends. That is enough: a site may
refuse everything from any moment on (`Site.exists_breakdown`), so that every
state on the way has the rules of a state in which some execution ends
(`Site.rules_of_reaches`). There the operations that stand are the first ones of
the plan, and these balance slot by slot (`WellFormed.slots_perm`).
-/

namespace PortForwarding

open Listing Script Operation

/-! ## States on the way -/

/-- The script may come by this state, on its way or at its end. -/
def Script.Reaches {α σ : Type} (may : Possible σ) (script : Script α) (s t : σ) :
    Prop :=
  ∃ steps result, Course may script s steps result t

theorem Script.Leads.reaches {α σ : Type} {may : Possible σ} {script : Script α}
    {a : α} {s t : σ} (h : Leads may script s a t) : Reaches may script s t := by
  induction h with
  | done a s => exact ⟨[], some a, .done a s⟩
  | ask now later ih =>
      obtain ⟨steps, result, hcourse⟩ := ih
      exact ⟨_, result, .ask now hcourse⟩

namespace Site

variable {α : Type} {s t : Site}

/-- Whatever is asked of a site, it may answer without a change to its rules. -/
theorem exists_refusal (s : Site) (request : Request) :
    ∃ reply t, May False s request reply t ∧ t.rules = s.rules := by
  cases request with
  | router call =>
      cases call with
      | list => exact ⟨.ok s.rules, s, ⟨rfl, rfl⟩, rfl⟩
      | add _ => exact ⟨.error (.unreachable ""), { s with stopped := true }, rfl, rfl⟩
      | update _ _ =>
          exact ⟨.error (.unreachable ""), { s with stopped := true },
            ⟨id, rfl⟩, rfl⟩
      | remove _ =>
          exact ⟨.error (.unreachable ""), { s with stopped := true },
            ⟨id, rfl⟩, rfl⟩
      | ready => exact ⟨.ok true, s, rfl, rfl⟩
  | store call => exact ⟨call.failure .noTarget, s, rfl, rfl⟩
  | memory call => exact ⟨(call.answer 0 s.memory).1, _, ⟨0, rfl, rfl⟩, rfl⟩
  | cancelled => exact ⟨false, _, rfl, rfl⟩
  | now => exact ⟨default, s, rfl, rfl⟩
  | publish _ _ => exact ⟨(), s, rfl, rfl⟩
  | lock _ => exact ⟨(), s, rfl, rfl⟩
  | unlock _ => exact ⟨(), s, rfl, rfl⟩

/-- **A site may break down at any moment**, and its rules stay as they are from
then on. -/
theorem exists_breakdown (script : Script α) (s : Site) :
    ∃ a t, Leads (May False) script s a t ∧ t.rules = s.rules := by
  induction script generalizing s with
  | done a => exact ⟨a, s, .done a s, rfl⟩
  | ask request next ih =>
      obtain ⟨reply, t, hmay, ht⟩ := exists_refusal s request
      obtain ⟨a, u, hleads, hu⟩ := ih reply t
      exact ⟨a, u, .ask hmay hleads, hu.trans ht⟩

theorem rules_of_reaches {script : Script α} (h : Reaches (May False) script s t) :
    ∃ a u, Leads (May False) script s a u ∧ u.rules = t.rules := by
  obtain ⟨steps, result, hcourse⟩ := h
  induction hcourse with
  | stop script s => exact exists_breakdown script s
  | done a s => exact ⟨a, s, .done a s, rfl⟩
  | ask now later ih =>
      obtain ⟨a, u, hleads, hu⟩ := ih
      exact ⟨a, u, .ask now hleads, hu⟩

end Site

namespace Plan

/-! ## Slots balance -/

/-- **Slots balance.** As far as overwritten rules stay on their slots, the slots
that operations take and those that they create are those that they give and those
that they delete. -/
theorem moved_slots_perm (ops : List Operation)
    (htargeted : ∀ op ∈ ops, op.kind ≠ .create → op.existing.isSome)
    (hslot : ∀ op ∈ ops, ∀ r d, op.rewrite? = some (r, d) → d.slot = r.slot) :
    ((ops.flatMap taken).map RuleSpec.slot ++
      (creations ops).map DesiredRule.slot).Perm
      ((ops.flatMap given).map RuleSpec.slot ++
        (deletions ops).map RouterRule.slot) := by
  induction ops with
  | nil => exact List.Perm.refl _
  | cons op ops ih =>
      have hrest := ih (fun op' hop' => htargeted op' (List.mem_cons_of_mem _ hop'))
        fun op' hop' => hslot op' (List.mem_cons_of_mem _ hop')
      have hfirst : ((op.taken).map RuleSpec.slot ++
          (creations [op]).map DesiredRule.slot).Perm
            ((op.given).map RuleSpec.slot ++ (deletions [op]).map RouterRule.slot) := by
        by_cases hcreate : op.kind = .create
        · simp [taken, given, creations, deletions, target?, creation?, deleted?,
            specs, hcreate, DesiredRule.slot]
        · obtain ⟨e, hex⟩ :=
            Option.isSome_iff_exists.mp (htargeted op List.mem_cons_self hcreate)
          cases hk : op.kind with
          | create => exact absurd hk hcreate
          | update =>
              have hstays :=
                hslot op List.mem_cons_self e op.rule (by simp [rewrite?, hk, hex])
              have hsame : op.rule.spec.slot = e.spec.slot := hstays
              simp [taken, given, creations, deletions, target?, creation?,
                deleted?, specs, hk, hex, hsame]
          | delete =>
              simp [taken, given, creations, deletions, target?, creation?,
                deleted?, specs, hk, hex, RouterRule.slot]
      have hcreations : creations (op :: ops) = creations [op] ++ creations ops :=
        List.filterMap_append (l := [op])
      have hdeletions : deletions (op :: ops) = deletions [op] ++ deletions ops :=
        List.filterMap_append (l := [op])
      rw [List.flatMap_cons, List.flatMap_cons, hcreations, hdeletions]
      rw [List.perm_iff_count] at hfirst hrest ⊢
      intro x
      have h₁ := hfirst x
      have h₂ := hrest x
      simp only [List.map_append, List.count_append] at h₁ h₂ ⊢
      omega

section

variable {key : ServiceKey} {desired : List DesiredRule} {start : List RouterRule}
  {plan first : List Operation} {done : List Completed} {s t : Site}

/-- The slots after the first operations of a plan: those at the start and those
that were created, less those that were deleted. -/
theorem WellFormed.slots_perm (h : WellFormed key desired start plan)
    (hfirst : done.reverse.map Completed.operation <+: plan)
    (hplaced : Placed start done [] t) :
    (t.rules.map RouterRule.slot ++
        (deletions (done.reverse.map Completed.operation)).map RouterRule.slot).Perm
      (start.map RouterRule.slot ++
        (creations (done.reverse.map Completed.operation)).map DesiredRule.slot) := by
  have hslots := moved_slots_perm (done.reverse.map Completed.operation)
    (fun op hop hk => by
      obtain ⟨e, -, hex⟩ := h.grounded.each op (hfirst.subset hop) hk
      rw [hex]
      rfl)
    fun op hop => h.slot op (hfirst.subset hop)
  have hdone : ∀ f : Operation → List RuleSpec,
      ((done.reverse.map Completed.operation).flatMap f).Perm
        (done.flatMap fun c => f c.operation) := by
    intro f
    rw [List.flatMap_map]
    exact List.Perm.flatMap_right _ done.reverse_perm
  have htaken := (hdone taken).map RuleSpec.slot
  have hgiven := (hdone given).map RuleSpec.slot
  have hbalance := hplaced.balance.map RuleSpec.slot
  have hspecs : ∀ rules : List RouterRule,
      (specs rules).map RuleSpec.slot = rules.map RouterRule.slot := by
    intro rules
    unfold specs
    rw [List.map_map]
    rfl
  rw [List.map_append, List.map_append, hspecs, hspecs] at hbalance
  rw [List.perm_iff_count] at hslots htaken hgiven hbalance ⊢
  intro x
  have h₁ := hslots x
  have h₂ := htaken x
  have h₃ := hgiven x
  have h₄ := hbalance x
  simp only [List.count_append] at h₁ h₄ ⊢
  omega

theorem WellFormed.deletions_of_created (h : WellFormed key desired start plan)
    (hfirst : first <+: plan) {op : Operation} (hop : op ∈ first)
    (hk : op.kind = .create) : deletions plan = deletions first := by
  obtain ⟨rest, rfl⟩ := hfirst
  have hrest : deletions rest = [] := by
    refine List.filterMap_eq_nil_iff.mpr fun later hlater => ?_
    have hrank := (List.pairwise_append.mp h.ordered).2.2 op hop later hlater
    cases hlast : later.kind with
    | create => simp [deleted?, hlast]
    | update => simp [deleted?, hlast]
    | delete =>
        rw [hk, hlast] at hrank
        exact absurd hrank (by decide)
  unfold deletions at hrest ⊢
  rw [List.filterMap_append, hrest, List.append_nil]

theorem WellFormed.creations_nodup (h : WellFormed key desired start plan) :
    ((creations plan).map DesiredRule.slot).Nodup := by
  have hbrought := brought_slots_perm plan fun op hop hk => by
    obtain ⟨e, -, hex⟩ := h.grounded.each op hop hk
    rw [hex]
    rfl
  exact (List.nodup_append.mp (hbrought.nodup_iff.mp h.once)).2.1

/-- **No slot has two rules after the first operations of a plan.** -/
theorem WellFormed.slots_nodup (h : WellFormed key desired start plan)
    (hstart : (start.map RouterRule.slot).Nodup)
    (hfirst : done.reverse.map Completed.operation <+: plan)
    (hplaced : Placed start done [] t) : (t.rules.map RouterRule.slot).Nodup := by
  have hslots := h.slots_perm hfirst hplaced
  have hcreated := h.creations_nodup.sublist ((hfirst.sublist.filterMap creation?).map _)
  rw [List.nodup_iff_count_le_one] at hstart hcreated ⊢
  rw [List.perm_iff_count] at hslots
  intro x
  have hx := hslots x
  have hx₁ := hstart x
  have hx₂ := hcreated x
  simp only [List.count_append] at hx
  by_cases hnew :
    x ∈ (creations (done.reverse.map Completed.operation)).map DesiredRule.slot
  -- the rule that was on the slot of a created one is among the deleted ones
  · obtain ⟨d, hd, hslot⟩ := List.mem_map.mp hnew
    obtain ⟨op, hop, hcreation⟩ := List.mem_filterMap.mp hd
    obtain ⟨hk, rfl⟩ := creation?_eq_some.mp hcreation
    have hgone : x ∈ start.map RouterRule.slot →
        x ∈ (deletions (done.reverse.map Completed.operation)).map RouterRule.slot := by
      intro hmem
      obtain ⟨r, hr, hrx⟩ := List.mem_map.mp hmem
      rw [← h.deletions_of_created hfirst hop hk, ← hrx]
      exact List.mem_map_of_mem
        (h.vacated op (hfirst.subset hop) hk r hr (hrx.trans hslot.symm))
    by_cases hold : x ∈ start.map RouterRule.slot
    · have hpos := List.count_pos_iff.mpr (hgone hold)
      unfold creations at hx₂ hx
      omega
    · have hzero := List.count_eq_zero.mpr hold
      unfold creations at hx₂ hx
      omega
  · have hzero := List.count_eq_zero.mpr hnew
    omega

/-! ## All the way -/

/-- **No slot ever has two rules while a plan is carried out**, nor while it is
undone, whatever fails and whenever it is stopped: as long as the site does not
deny a rule that is there. -/
theorem slots_stay_apart {reference : ObjectReference} (hs : s.Sound)
    (hslots : (s.rules.map RouterRule.slot).Nodup) (hasked : Asked key desired)
    (hplan : plan = planFor key desired s.rules
        (Takeover.revalidate (Takeover.detect key desired s.rules) s.rules) ∨
      plan = (Drift.compare key reference desired s.rules).correctionPlan)
    (h : Reaches (Site.May False) (execute plan).run s t) :
    (t.rules.map RouterRule.slot).Nodup := by
  have hwellFormed : WellFormed key desired s.rules plan := by
    rcases hplan with rfl | rfl
    · exact wellFormed_planFor hasked hs.ids_nodup
    · exact wellFormed_correctionPlan reference hasked hs.ids_nodup
  obtain ⟨result, u, hleads, hrules⟩ := Site.rules_of_reaches h
  have hended : Ended False (targetedPorts plan) s.rules s.memory.reservations
      plan result u :=
    executeAfter_leads (.start_of_grounded hs hwellFormed.grounded)
      (.nil (.refl _)) hleads
  obtain ⟨done, hkept, hplaced, -, -⟩ := hended.kept
  rw [← hrules]
  refine hwellFormed.slots_nodup hslots ?_ hplaced
  rw [← hkept]
  exact List.take_prefix _ _

end

end Plan

/-! ## A slot that is freed and filled again -/

namespace Sample

open Plan

def misplaced : RouterRule := ⟨"r1", (wish "http" 80 8080).spec⟩

def before : Site := ⟨[misplaced], ["r1"], .empty, false⟩

def replacement : RouterRule := ⟨"r2", (wish "https" 80 8080).spec⟩

def exchanged (stopped : Bool) :
    Site := ⟨[replacement], ["r2", "r1"], .empty, stopped⟩

def restored : Site := ⟨[⟨"r3", misplaced.spec⟩], ["r3", "r2", "r1"], .empty, true⟩

def collided : Site :=
  ⟨[replacement, ⟨"r3", misplaced.spec⟩], ["r3", "r2", "r1"], .empty, true⟩

def deleteMisplaced : Operation :=
  .delete ⟨.of key "http", misplaced.spec⟩ misplaced .driftWrongRisky

def createReplacement : Operation := .create (wish "https" 80 8080) .driftMissing

def createMoved : Operation := .create (wish "http" 90 9090) .driftWrongRisky

theorem before_sound : before.Sound :=
  ⟨by decide, by decide⟩

theorem correctionPlan_crossing :
    (Drift.compare key default crossing before.rules).correctionPlan =
      [deleteMisplaced, createReplacement, createMoved] :=
  Operation.sequence_eq (by decide +kernel) (by decide +kernel)

def exchange : List Completed :=
  [⟨createReplacement, replacement, none⟩, ⟨deleteMisplaced, misplaced, none⟩]

def undone : Halt :=
  ⟨.failed createMoved (.api 500 "down"), [deleteMisplaced, createReplacement], 0,
    [createReplacement, deleteMisplaced], none⟩

/-- Up to the moment at which the first two operations have to be undone. -/
theorem reaches_exchanged {denying : Prop} {t : Site}
    (h : Leads (Site.May denying) (Completed.halt exchange
      (.failed createMoved (.api 500 "down")) 0) (exchanged true) undone t) :
    Reaches (Site.May denying)
      (execute [deleteMisplaced, createReplacement, createMoved]).run before t := by
  refine Leads.reaches (a := .error undone) ?_
  refine leads_ask.mpr ⟨false, before, rfl, ?_⟩
  refine leads_ask.mpr ⟨.ok (), ⟨[], ["r1"], .empty, false⟩, ⟨by decide, rfl⟩, ?_⟩
  refine leads_ask.mpr ⟨false, ⟨[], ["r1"], .empty, false⟩, rfl, ?_⟩
  refine leads_ask.mpr ⟨.ok replacement, exchanged false, ⟨rfl, by decide, rfl⟩, ?_⟩
  refine leads_ask.mpr ⟨false, exchanged false, rfl, ?_⟩
  refine leads_ask.mpr ⟨.error (.api 500 "down"), exchanged true, rfl, ?_⟩
  exact leads_bind.mpr ⟨_, _, .done _ _, leads_bind.mpr ⟨undone, t, h, .done _ _⟩⟩

end Sample

open Sample in
theorem Plan.slots_stay_apart_crossing :
    before.Sound ∧ (before.rules.map RouterRule.slot).Nodup ∧ Asked key crossing ∧
    Reaches (Site.May False)
      (execute (Drift.compare key default crossing
        before.rules).correctionPlan).run before
      restored ∧
    (restored.rules.map RouterRule.slot).Nodup := by
  have hreaches : Reaches (Site.May False)
      (execute (Drift.compare key default crossing
      before.rules).correctionPlan).run before
      restored := by
    rw [correctionPlan_crossing]
    refine reaches_exchanged ?_
    refine leads_ask.mpr ⟨.ok [replacement], exchanged true, ⟨rfl, rfl⟩, ?_⟩
    refine leads_ask.mpr ⟨.ok (), ⟨[], ["r2", "r1"], .empty, true⟩, ⟨by decide, rfl⟩, ?_⟩
    refine leads_ask.mpr ⟨.ok ⟨"r3", misplaced.spec⟩, restored, ⟨rfl, by decide, rfl⟩, ?_⟩
    exact .done _ _
  exact ⟨before_sound, by decide, wanted_crossing.asked, hreaches,
    slots_stay_apart before_sound (by decide) wanted_crossing.asked (Or.inr rfl) hreaches⟩

open Sample in
/-- **A denial brings two rules onto one slot.** The new rule is taken to be gone,
and the old one comes back beside it. -/
theorem Plan.slots_collide :
    ∃ (key : ServiceKey) (desired : List DesiredRule) (reference : ObjectReference)
      (s t : Site),
      key.Valid ∧ Wanted key desired ∧ s.Sound ∧ (s.rules.map RouterRule.slot).Nodup ∧
      Reaches (Site.May True)
        (execute (Drift.compare key reference desired s.rules).correctionPlan).run
          s t ∧
      ¬(t.rules.map RouterRule.slot).Nodup := by
  refine ⟨key, crossing, default, before, collided, key_valid,
    wanted_crossing, before_sound, by decide, ?_, by decide⟩
  rw [correctionPlan_crossing]
  refine reaches_exchanged ?_
  refine leads_ask.mpr ⟨.ok [replacement], exchanged true, ⟨rfl, rfl⟩, ?_⟩
  refine leads_ask.mpr ⟨.error (.notFound "r2"), exchanged true,
    ⟨fun _ => trivial, rfl⟩, ?_⟩
  refine leads_ask.mpr ⟨.ok ⟨"r3", misplaced.spec⟩, collided, ⟨rfl, by decide, rfl⟩, ?_⟩
  exact .done _ _

end PortForwarding
