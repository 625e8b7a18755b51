import PortForwarding.Plan.Execution
import PortForwarding.Proofs.Site

/-!
# Undoing is an operation

The operation that undoes another (`Completed.inverse`) takes what the other gave
and gives what the other took (`taken_inverse`, `given_inverse`). On a site both
are the same thing: an operation is carried out or refused (`attempt_leads`), and
so is what undoes it (`compensation_leads`), as long as the site does not deny the
rules that are there.
-/

namespace PortForwarding

open Listing Script Operation

namespace Completed

def left? (c : Completed) : Option RouterRule :=
  match c.operation.kind with
  | .delete => none
  | _ => some c.applied

/-- The operation that undoes another. -/
def inverse (c : Completed) : Operation :=
  match c.operation.kind, c.operation.existing with
  | .create, _ => .delete c.operation.rule c.applied c.operation.reason
  | .update, some before =>
    .update { c.operation.rule with spec := before.spec } c.applied c.operation.reason []
  | _, some before =>
      .create { c.operation.rule with spec := before.spec } c.operation.reason
  | _, none => c.operation

/-- What was noted of an operation agrees with it. -/
inductive Faithful (c : Completed) : Prop where
  | created (kind : c.operation.kind = .create)
      (spec : c.applied.spec = c.operation.rule.spec)
  | updated (before : RouterRule) (kind : c.operation.kind = .update)
      (existing : c.operation.existing = some before)
      (applied : c.applied = ⟨before.id, c.operation.rule.spec⟩)
  | deleted (before : RouterRule) (kind : c.operation.kind = .delete)
      (existing : c.operation.existing = some before)

variable {c : Completed}

theorem target?_inverse (h : c.Faithful) : c.inverse.target? = c.left? := by
  rcases h with ⟨hk, -⟩ | ⟨before, hk, hex, -⟩ | ⟨before, hk, hex⟩
  · simp [inverse, left?, target?, hk, delete]
  · simp [inverse, left?, target?, hk, hex, update]
  · simp [inverse, left?, target?, hk, hex, create]

/-- **What an operation gave, its inverse takes.** -/
theorem taken_inverse (h : c.Faithful) : c.inverse.taken = c.operation.given := by
  unfold taken given
  rw [target?_inverse h]
  rcases h with ⟨hk, hspec⟩ | ⟨before, hk, hex, happlied⟩ | ⟨before, hk, hex⟩
  · simp [left?, hk, specs, hspec]
  · simp [left?, hk, specs, happlied]
  · simp [left?, hk, specs]

/-- **What an operation took, its inverse gives.** -/
theorem given_inverse (h : c.Faithful) : c.inverse.given = c.operation.taken := by
  rcases h with ⟨hk, -⟩ | ⟨before, hk, hex, -⟩ | ⟨before, hk, hex⟩
  · simp [inverse, given, taken, target?, specs, hk, delete]
  · simp [inverse, given, taken, target?, specs, hk, hex, update]
  · simp [inverse, given, taken, target?, specs, hk, hex, create]

theorem inverse_isGrounded {rules : List RouterRule} (h : c.Faithful)
    (hleft : ∀ r, c.left? = some r → r ∈ rules) : c.inverse.IsGrounded rules := by
  rcases h with ⟨hk, -⟩ | ⟨before, hk, hex, -⟩ | ⟨before, hk, hex⟩
  · intro _
    exact ⟨c.applied, hleft _ (by simp [left?, hk]), by simp [inverse, hk, delete]⟩
  · intro _
    exact ⟨c.applied, hleft _ (by simp [left?, hk]), by simp [inverse, hk, hex, update]⟩
  · intro hne
    exact absurd (by simp [inverse, hk, hex, create]) hne

end Completed

/-! ## One operation -/

namespace Plan

variable {denying : Prop} {s t : Site} {op : Operation}

/-- **An operation is carried out on the site or refused.** -/
theorem attempt_leads {r : Except RouterError RouterRule}
    (hop : op.IsGrounded s.rules)
    (h : Leads (Site.May denying) (attempt op).run s r t) :
    (∃ applied, r = .ok applied ∧ Site.Applies op applied.id s t ∧
        ∀ released, Completed.Faithful ⟨op, applied, released⟩) ∨
      (∃ e, r = .error e ∧ Site.Refuses s t) := by
  rcases hop.cases with hk | ⟨e, he, hex, hk | hk⟩
  · have hrun : attempt op = addRule op.rule.spec := by
      unfold attempt
      rw [hk]
    rw [hrun] at h
    rcases Site.may_add (leads_addRule.mp h) with
      ⟨rule, rfl, hspec, hid, rfl⟩ | ⟨e, rfl, ht⟩
    · refine Or.inl ⟨rule, rfl,
        ⟨?_, fun _ => ⟨hid, rfl⟩, fun hne => absurd hk hne, rfl, rfl⟩,
        fun _ => .created hk hspec⟩
      rw [apply_of_create hk, ← hspec]
    · exact Or.inr ⟨e, rfl, ht⟩
  · have hrun : attempt op = updateRule e.id op.rule.spec := by
      unfold attempt
      rw [hk, hex]
    have hne : op.kind ≠ .create := by simp [hk]
    rw [hrun] at h
    rcases Site.may_update (leads_updateRule.mp h) with ⟨rfl, -, rfl⟩ | ⟨e, rfl, -, ht⟩
    · exact Or.inl ⟨_, rfl,
        ⟨(apply_of_update hk hex).symm, fun hc => absurd hc hne, fun _ => rfl, rfl,
          rfl⟩, fun _ => .updated e hk hex rfl⟩
    · exact Or.inr ⟨e, rfl, ht⟩
  · have hrun : attempt op = removeRule e.id >>= fun _ => pure e := by
      unfold attempt
      rw [hk, hex]
    have hne : op.kind ≠ .create := by simp [hk]
    rw [hrun] at h
    obtain ⟨removed, hremove, rfl⟩ := leads_tryMap.mp h
    rcases Site.may_remove (leads_removeRule.mp hremove) with
      ⟨rfl, -, rfl⟩ | ⟨err, rfl, -, ht⟩
    · exact Or.inl ⟨e, rfl, ⟨(apply_of_delete hk hex).symm, fun hc => absurd hc hne,
        fun _ => rfl, rfl, rfl⟩, fun _ => .deleted e hk hex⟩
    · exact Or.inr ⟨err, rfl, ht⟩

end Plan

/-! ## One operation undone -/

namespace Compensation

variable {s t : Site} {id : String} {spec : RuleSpec}

/-- On a site that does not deny it, a rule that is there is removed or stays. -/
theorem ensureRemoved_leads {r : Except RouterError Unit} (hid : id ∈ ids s.rules)
    (hstopped : s.stopped = true)
    (h : Leads (Site.May False) (ensureRemoved id).run s r t) :
    (r = .ok () ∧ t = { s with rules := without id s.rules }) ∨
      (∃ err, r = .error err ∧ Site.Refuses s t) := by
  obtain ⟨reply, s', hremove, hrest⟩ := leads_bind.mp h
  rcases Site.may_remove (leads_removeRule.mp hremove) with
    ⟨rfl, -, ht⟩ | ⟨err, rfl, hdenies, ht⟩
  · obtain ⟨rfl, rfl⟩ := leads_done.mp hrest
    exact Or.inl ⟨rfl, ht⟩
  · cases err with
    -- this answer would be taken for success, but a site that never denies does
    -- not give it
    | notFound what => exact absurd ⟨hstopped, hid⟩ hdenies
    | _ =>
        obtain ⟨rfl, rfl⟩ := leads_done.mp hrest
        exact Or.inr ⟨_, rfl, ht⟩

/-- On a site that does not deny it, a rule that is there is written as it was
or stays. -/
theorem restored_leads {r : Except RouterError RouterRule}
    (hid : id ∈ ids s.rules) (hstopped : s.stopped = true)
    (h : Leads (Site.May False) (restored id spec).run s r t) :
    (r = .ok ⟨id, spec⟩ ∧ t = { s with rules := overwrite id spec s.rules }) ∨
      (∃ err, r = .error err ∧ Site.Refuses s t) := by
  obtain ⟨reply, s', hupdate, hrest⟩ := leads_bind.mp h
  rcases Site.may_update (leads_updateRule.mp hupdate) with
    ⟨rfl, -, ht⟩ | ⟨err, rfl, hdenies, ht⟩
  · obtain ⟨rfl, rfl⟩ := leads_done.mp hrest
    exact Or.inl ⟨rfl, ht⟩
  · cases err with
    | notFound what => exact absurd ⟨hstopped, hid⟩ hdenies
    | _ =>
        obtain ⟨rfl, rfl⟩ := leads_done.mp hrest
        exact Or.inr ⟨_, rfl, ht⟩

theorem restore_leads {r : Except RouterError Unit} (hid : id ∈ ids s.rules)
    (hstopped : s.stopped = true)
    (h : Leads (Site.May False) (carryOut (.restore id spec)).run s r t) :
    (r = .ok () ∧ t = { s with rules := overwrite id spec s.rules }) ∨
      (∃ err, r = .error err ∧ Site.Refuses s t) := by
  obtain ⟨x, hrestored, rfl⟩ := leads_tryMap.mp h
  rcases restored_leads hid hstopped hrestored with ⟨rfl, ht⟩ | ⟨err, rfl, ht⟩
  · exact Or.inl ⟨rfl, ht⟩
  · exact Or.inr ⟨err, rfl, ht⟩

/-- A rule that was deleted comes back under a new identifier or stays away. -/
theorem recreate_leads {r : Except RouterError Unit}
    (h : Leads (Site.May False) (carryOut (.recreate spec)).run s r t) :
    (r = .ok () ∧ ∃ id, id ∉ s.issued ∧
        t = { s with rules := s.rules ++ [⟨id, spec⟩], issued := id :: s.issued }) ∨
      (∃ err, r = .error err ∧ Site.Refuses s t) := by
  obtain ⟨x, hadd, rfl⟩ := leads_tryMap.mp h
  rcases Site.may_add (leads_addRule.mp hadd) with
    ⟨rule, rfl, rfl, hid, ht⟩ | ⟨err, rfl, ht⟩
  · exact Or.inl ⟨rfl, rule.id, hid, ht⟩
  · exact Or.inr ⟨err, rfl, ht⟩

end Compensation

namespace Completed

open Compensation

variable {s t : Site} {c : Completed} {listing : Option (List RouterRule)}

def ShownBy (listing : Option (List RouterRule)) (r : RouterRule) : Prop :=
  ∀ rules, listing = some rules → r.id ∈ ids rules

theorem isPresent_of_shown {r : RouterRule} (h : ShownBy listing r) :
    isPresent listing r.id = true := by
  cases listing with
  | none => rfl
  | some rules =>
      obtain ⟨r', hr', hid⟩ := List.mem_map.mp (h rules rfl)
      exact List.any_eq_true.mpr ⟨r', hr', by simp [hid]⟩

/-- **What undoes an operation is its inverse**, carried out on the site
or refused. -/
theorem compensation_leads {r : Except RouterError Unit} (hc : c.Faithful)
    (hleft : ∀ x, c.left? = some x → x ∈ s.rules ∧ ShownBy listing x)
    (hstopped : s.stopped = true)
    (h : Leads (Site.May False) (c.compensation listing).carryOut.run s r t) :
    (r = .ok () ∧ ∃ id, Site.Applies c.inverse id s t) ∨
      (∃ err, r = .error err ∧ Site.Refuses s t) := by
  rcases hc with ⟨hk, -⟩ | ⟨before, hk, hex, happlied⟩ | ⟨before, hk, hex⟩
  · obtain ⟨hmem, hshown⟩ := hleft c.applied (by simp [left?, hk])
    have hcompensation : c.compensation listing = .remove c.applied.id := by
      simp [compensation, hk, isPresent_of_shown hshown]
    have hinverse :
        c.inverse = .delete c.operation.rule c.applied c.operation.reason := by
      simp [inverse, hk]
    rw [hcompensation] at h
    rcases ensureRemoved_leads (mem_ids_of_mem hmem) hstopped h with ⟨rfl, rfl⟩ | hrefused
    · refine Or.inl ⟨rfl, "", ?_⟩
      rw [hinverse]
      exact ⟨rfl, fun hne => absurd hne (by simp [delete]), fun _ => rfl, rfl, rfl⟩
    · exact Or.inr hrefused
  · obtain ⟨hmem, hshown⟩ := hleft c.applied (by simp [left?, hk])
    have hid : c.applied.id = before.id := by rw [happlied]
    have hcompensation : c.compensation listing = .restore c.applied.id before.spec := by
      have hpresent := isPresent_of_shown hshown
      rw [hid] at hpresent ⊢
      simp [compensation, hk, hex, hpresent]
    have hinverse : c.inverse =
        .update { c.operation.rule with spec := before.spec } c.applied
          c.operation.reason [] := by
      simp [inverse, hk, hex]
    rw [hcompensation] at h
    rcases restore_leads (mem_ids_of_mem hmem) hstopped h with ⟨rfl, rfl⟩ | hrefused
    · refine Or.inl ⟨rfl, "", ?_⟩
      rw [hinverse]
      exact ⟨rfl, fun hne => absurd hne (by simp [update]), fun _ => rfl, rfl, rfl⟩
    · exact Or.inr hrefused
  · have hcompensation : c.compensation listing = .recreate before.spec := by
      simp [compensation, hk, hex]
    have hinverse : c.inverse = .create { c.operation.rule with spec := before.spec }
        c.operation.reason := by
      simp [inverse, hk, hex]
    rw [hcompensation] at h
    rcases recreate_leads h with ⟨rfl, id, hid, rfl⟩ | hrefused
    · refine Or.inl ⟨rfl, id, ?_⟩
      rw [hinverse]
      exact ⟨rfl, fun _ => ⟨hid, rfl⟩, fun hne => absurd rfl hne, rfl, rfl⟩
    · exact Or.inr hrefused

end Completed

end PortForwarding
