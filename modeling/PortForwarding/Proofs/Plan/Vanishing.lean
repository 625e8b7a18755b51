import PortForwarding.Proofs.Pass.Asks
import PortForwarding.Proofs.Plan.Execution
import PortForwarding.Proofs.Plan.Exposure

/-!
# Undoing while rules disappear

Rules that a plan has written are taken from the router, each at any moment
between the call that wrote it and the call that is to undo it. What undoes an
operation undoes what is left of it (`compensation_survives`), whether its rule
went before the router was looked at or after it. So an undone plan leaves the
configurations as they were before it, whatever was taken
(`execute_survives_vanishing`).
-/

namespace PortForwarding

open Listing Script Operation

namespace Plan

open Completed Exposed

section

variable {start : List RouterRule} {done : List Completed} {todo : List Operation}
  {c : Completed} {op : Operation} {s t u : Exposed}
  {listing : Option (List RouterRule)}

/-! ## Back -/

theorem may_add_undoing {spec : RuleSpec} {r : Except RouterError RouterRule}
    (hstopped : s.site.stopped = true) (h : Exposed.May s (.router (.add spec)) r t) :
    ∃ u rule, s.Loses u ∧ r = .ok rule ∧ rule.spec = spec ∧ rule.id ∉ u.site.issued ∧
      t.site = { u.site with
        rules := u.site.rules ++ [rule], issued := rule.id :: u.site.issued } ∧
      t.written = u.written := by
  obtain ⟨u, hloses, hmay, hyields, hwritten⟩ := h
  have hgoing : u.site.stopped = true := hloses.stopped.trans hstopped
  cases r with
  | ok rule =>
      obtain ⟨hspec, hid, ht⟩ := hmay
      refine ⟨u, rule, hloses, rfl, hspec, hid, ht, ?_⟩
      rw [hwritten]
      simp [noted, hgoing]
  | error e => exact absurd (hyields.symm.trans hgoing) (by simp)

/-- **A rule that was deleted, or overwritten and then taken, is made again.** -/
theorem recreated {spec : RuleSpec} {r : Except RouterError RouterRule}
    (h : Survives start (c :: done) [] s) (hstopped : s.site.stopped = true)
    (hfaded : ∀ u, s.Loses u → ∃ d, c.faded? u.site.rules = some d ∧
      d.inverse.kind = .create ∧ d.inverse.rule.spec = spec ∧
      ∀ x, c.left? = some x → x.id ∉ ids u.site.rules)
    (hadd : Exposed.May s (.router (.add spec)) r t) :
    (∃ rule, r = .ok rule) ∧ Survives start done [] t ∧ t.site.stopped = true := by
  obtain ⟨u, rule, hloses, rfl, hspec, hid, ht, hwritten⟩ := may_add_undoing hstopped hadd
  obtain ⟨d, hd, hk, hrule, hlost⟩ := hfaded u hloses
  have hmay : Site.May True u.site (.router (.add spec)) (.ok rule) t.site :=
    ⟨hspec, hid, ht⟩
  have happlies : Site.Applies d.inverse rule.id u.site t.site := by
    rw [ht]
    refine ⟨?_, fun _ => ⟨hid, rfl⟩, fun hne => absurd hk hne, rfl, rfl⟩
    rw [apply_of_create hk, hrule, ← hspec]
  refine ⟨⟨rule, rfl⟩, (h.loses hloses).back hd happlies (fun i hi =>
    hi.step hmay) ?_, ?_⟩
  · intro i hi
    rw [hwritten] at hi
    exact ⟨hi, fun x hx hmem => absurd hmem (hlost x hx)⟩
  · rw [ht]
    exact hloses.stopped.trans hstopped

/-- Where the rule that a call addresses is gone, the call has changed nothing. -/
theorem Survives.refused {todo : List Operation} (h : Survives start done todo u)
    (hrefuses : Site.Refuses u.site t.site) (hwritten : t.written ⊆ u.written) :
    Survives start done todo t ∧ t.site.stopped = true := by
  have ht : t.site = { u.site with stopped := true } := hrefuses
  exact ⟨h.congr (by rw [ht]) (by rw [ht]) hwritten, by rw [ht]⟩

theorem noted_filter_subset {written : List String} (i : String) (stopped : Bool) :
    (if stopped then written.filter fun j => decide (j ≠ i) else written) ⊆
      written := by
  split
  · exact List.filter_sublist.subset
  · exact List.Subset.refl _

theorem removed_survives {before : RouterRule} {r : Except RouterError Unit}
    (h : Survives start (c :: done) [] s) (hleft : c.left? = some before)
    (hk : c.operation.kind = .create) (hstopped : s.site.stopped = true)
    (hleads : Leads Exposed.May (Compensation.ensureRemoved before.id).run s r t) :
    r = .ok () ∧ Survives start done [] t ∧ t.site.stopped = true := by
  obtain ⟨reply, s₁, hremove, hrest⟩ := leads_bind.mp hleads
  obtain ⟨u, hloses, hmay, hyields, hwritten⟩ := leads_removeRule.mp hremove
  have hgoing : u.site.stopped = true := hloses.stopped.trans hstopped
  have hu := h.loses hloses
  rcases Site.may_remove hmay with ⟨rfl, hid, ht⟩ | ⟨err, rfl, -, hrefuses⟩
  · obtain ⟨rfl, rfl⟩ := leads_done.mp hrest
    have hinverse : c.inverse = .delete c.operation.rule before c.operation.reason := by
      obtain rfl : c.applied = before := by simpa [left?, hk] using hleft
      simp [inverse, hk]
    have happlies : Site.Applies c.inverse "" u.site t.site := by
      rw [hinverse, ht]
      exact ⟨rfl, fun hne => absurd hne (by simp [delete]), fun _ => rfl, rfl, rfl⟩
    refine ⟨rfl, hu.back (faded?_of_mem hleft hid) happlies (fun i hi =>
      hi.step hmay) ?_, ?_⟩
    · intro i hi
      rw [hwritten] at hi
      simp only [noted, hgoing, if_true, List.mem_filter, decide_eq_true_eq] at hi
      refine ⟨hi.1, fun x hx _ => ?_⟩
      obtain rfl := Option.some.inj (hleft.symm.trans hx)
      exact Ne.symm hi.2
    · rw [ht]
      exact hgoing
  -- the rule was taken between the look at the router and the call
  · obtain ⟨hlost, what, rfl⟩ := hyields hgoing
    obtain ⟨rfl, rfl⟩ := leads_done.mp hrest
    have hnone : c.faded? u.site.rules = none :=
      (faded?_of_lost hleft hlost).trans (vanished?_of_create hk)
    refine ⟨rfl, (hu.pass hnone).refused hrefuses ?_⟩
    rw [hwritten]
    exact noted_filter_subset _ _

/-- Somebody has taken a rule that was overwritten: it is made again as it was. -/
theorem lost_update {before : RouterRule} {r : Except RouterError RouterRule}
    (h : Survives start (c :: done) [] s) (hk : c.operation.kind = .update)
    (hex : c.operation.existing = some before) (hid : c.applied.id = before.id)
    (hlost : before.id ∉ ids s.site.rules) (hstopped : s.site.stopped = true)
    (hadd : Exposed.May s (.router (.add before.spec)) r t) :
    (∃ rule, r = .ok rule) ∧ Survives start done [] t ∧ t.site.stopped = true := by
  refine recreated h hstopped (fun u hloses => ?_) hadd
  have hleft : c.left? = some c.applied := by simp [left?, hk]
  have hgone : c.applied.id ∉ ids u.site.rules := by
    rw [hid]
    have hissued : before.id ∈ s.site.issued :=
      hid ▸ h.issued _ (mem_ids_lefts_cons.mpr (Or.inl ⟨_, hleft, rfl⟩))
    exact (hloses.retired ⟨hissued, hlost⟩).2
  refine ⟨_, (faded?_of_lost hleft hgone).trans (vanished?_of_update hk hex), rfl,
    rfl, ?_⟩
  intro x hx
  obtain rfl := Option.some.inj (hleft.symm.trans hx)
  exact hgone

theorem restored_survives {before : RouterRule}
    {r : Except RouterError RouterRule} (h : Survives start (c :: done) [] s)
    (hk : c.operation.kind = .update) (hex : c.operation.existing = some before)
    (hid : c.applied.id = before.id) (hstopped : s.site.stopped = true)
    (hleads :
      Leads Exposed.May (Compensation.restored before.id before.spec).run s r t) :
    (∃ rule, r = .ok rule) ∧ Survives start done [] t ∧ t.site.stopped = true := by
  obtain ⟨reply, s₁, hupdate, hrest⟩ := leads_bind.mp hleads
  obtain ⟨u, hloses, hmay, hyields, hwritten⟩ := leads_updateRule.mp hupdate
  have hgoing : u.site.stopped = true := hloses.stopped.trans hstopped
  have hu := h.loses hloses
  have hleft : c.left? = some c.applied := by simp [left?, hk]
  rcases Site.may_update hmay with ⟨rfl, hmem, ht⟩ | ⟨err, rfl, -, hrefuses⟩
  · obtain ⟨rfl, rfl⟩ := leads_done.mp hrest
    have hinverse : c.inverse =
        .update { c.operation.rule with spec := before.spec } c.applied
          c.operation.reason [] := by
      simp [inverse, hk, hex]
    have happlies : Site.Applies c.inverse "" u.site t.site := by
      rw [hinverse, ht]
      refine ⟨?_, fun hne => absurd hne (by simp [update]), fun _ => rfl, rfl, rfl⟩
      rw [apply_of_update rfl rfl, hid]
      rfl
    refine ⟨⟨_, rfl⟩, hu.back (faded?_of_mem hleft (hid ▸ hmem)) happlies
      (fun i hi => hi.step hmay) ?_, ?_⟩
    · intro i hi
      rw [hwritten] at hi
      simp only [noted, hgoing, if_true, List.mem_filter, decide_eq_true_eq] at hi
      refine ⟨hi.1, fun x hx _ => ?_⟩
      obtain rfl := Option.some.inj (hleft.symm.trans hx)
      exact hid ▸ Ne.symm hi.2
    · rw [ht]
      exact hgoing
  · obtain ⟨hlost, what, rfl⟩ := hyields hgoing
    obtain ⟨hs₁, hgoing₁⟩ :=
      hu.refused hrefuses (by rw [hwritten]; exact noted_filter_subset _ _)
    have hlost₁ : before.id ∉ ids s₁.site.rules := by
      rw [show s₁.site = { u.site with stopped := true } from hrefuses]
      exact hlost
    exact lost_update hs₁ hk hex hid hlost₁ hgoing₁ (leads_addRule.mp hrest)

/-- **What undoes an operation undoes what is left of it**, if the listing shows
what is there. -/
theorem compensation_survives {r : Except RouterError Unit}
    (h : Survives start (c :: done) [] s)
    (hshown : ∀ x, c.left? = some x → x.id ∈ ids s.site.rules →
      isPresent listing x.id = true) (hstopped : s.site.stopped = true)
    (hleads : Leads Exposed.May (c.compensation listing).carryOut.run s r t) :
    r = .ok () ∧ Survives start done [] t ∧ t.site.stopped = true := by
  rcases h.faithful c List.mem_cons_self with
    ⟨hk, -⟩ | ⟨before, hk, hex, happlied⟩ | ⟨before, hk, hex⟩
  · have hleft : c.left? = some c.applied := by simp [left?, hk]
    by_cases hseen : isPresent listing c.applied.id = true
    · have hcompensation : c.compensation listing = .remove c.applied.id := by
        simp [compensation, hk, hseen]
      rw [hcompensation] at hleads
      exact removed_survives h hleft hk hstopped hleads
    · have hcompensation : c.compensation listing = .nothing := by
        simp [compensation, hk, hseen]
      rw [hcompensation] at hleads
      obtain ⟨rfl, rfl⟩ := leads_tryPure.mp hleads
      have hlost : c.applied.id ∉ ids t.site.rules := fun hmem =>
        hseen (hshown _ hleft hmem)
      exact ⟨rfl,
        h.pass ((faded?_of_lost hleft hlost).trans (vanished?_of_create hk)),
        hstopped⟩
  · have hleft : c.left? = some c.applied := by simp [left?, hk]
    have hid : c.applied.id = before.id := by rw [happlied]
    by_cases hseen : isPresent listing before.id = true
    · have hcompensation : c.compensation listing = .restore before.id before.spec := by
        simp [compensation, hk, hex, hseen]
      rw [hcompensation] at hleads
      obtain ⟨x, hrestored, rfl⟩ := leads_tryMap.mp hleads
      obtain ⟨⟨rule, rfl⟩, hdone⟩ := restored_survives h hk hex hid hstopped hrestored
      exact ⟨rfl, hdone⟩
    · have hcompensation : c.compensation listing = .recreate before.spec := by
        simp [compensation, hk, hex, hseen]
      rw [hcompensation] at hleads
      obtain ⟨x, hadd, rfl⟩ := leads_tryMap.mp hleads
      have hlost : before.id ∉ ids s.site.rules :=
        fun hmem => hseen (hid ▸ hshown _ hleft (hid ▸ hmem))
      obtain ⟨⟨rule, rfl⟩, hdone⟩ :=
        lost_update h hk hex hid hlost hstopped (leads_addRule.mp hadd)
      exact ⟨rfl, hdone⟩
  · have hcompensation : c.compensation listing = .recreate before.spec := by
      simp [compensation, hk, hex]
    rw [hcompensation] at hleads
    obtain ⟨x, hadd, rfl⟩ := leads_tryMap.mp hleads
    obtain ⟨⟨rule, rfl⟩, hdone⟩ :=
      recreated h hstopped
        (fun u _ => ⟨c, faded?_of_deletion hk, by simp [inverse, hk, hex, create],
          by simp [inverse, hk, hex, create],
          fun x hx => absurd hx (by simp [left?, hk])⟩) (leads_addRule.mp hadd)
    exact ⟨rfl, hdone⟩

theorem Survives.memory {α : Type} {script : Script α} {a : α}
    (h : Survives start done todo s) (hasks : Asks OnlyMemory script)
    (hleads : Leads Exposed.May script s a t) :
    Survives start done todo t ∧ t.site.stopped = s.site.stopped := by
  refine hleads.preserves_of_asks
    (P := fun t => Survives start done todo t ∧ t.site.stopped = s.site.stopped)
    hasks ?_ ⟨h, rfl⟩
  rintro s' r reply t hr ⟨hs', hstill⟩ ⟨u, hloses, hmay, -, hwritten⟩
  cases r with
  | memory call =>
      obtain ⟨now, -, ht⟩ := hmay
      have hsubset : t.written ⊆ u.written := hwritten ▸ List.Subset.refl _
      refine ⟨(hs'.loses hloses).congr (by rw [ht]) (by rw [ht]) hsubset, ?_⟩
      rw [ht]
      exact hloses.stopped.trans hstill
  | router _ | store _ | publish _ _ | cancelled | now | lock _ | unlock _ =>
      exact hr.elim

theorem undoAll_survives {undone : List Operation}
    {failure : Option (Operation × RouterError)} (h : Survives start done [] s)
    (hstopped : s.site.stopped = true)
    (hshown : ∀ r ∈ lefts done, r.id ∈ ids s.site.rules →
      isPresent listing r.id = true)
    (hleads : Leads Exposed.May (undoAll listing done) s (undone, failure) t) :
    undone = done.map Completed.operation ∧ failure = none ∧
    Survives start [] [] t := by
  -- over what was done, the latest first: what undoes an operation never fails
  induction done generalizing s undone failure with
  | nil =>
      obtain ⟨heq, rfl⟩ := leads_done.mp hleads
      obtain ⟨rfl, rfl⟩ := Prod.mk.inj heq
      exact ⟨rfl, rfl, h⟩
  | cons c done ih =>
      obtain ⟨r, s₁, hcompensation, hrest⟩ := leads_bind.mp hleads
      have hhead : ∀ x, c.left? = some x → x.id ∈ ids s.site.rules →
          isPresent listing x.id = true :=
        fun x hx => hshown x (List.mem_filterMap.mpr ⟨c, List.mem_cons_self, hx⟩)
      obtain ⟨rfl, hs₁, hstopped₁⟩ := compensation_survives h hhead hstopped hcompensation
      obtain ⟨u, s₂, hreclaim, hrest⟩ := leads_bind.mp hrest
      obtain ⟨⟨later, failed⟩, s₃, hlater, hdone⟩ := leads_bind.mp hrest
      obtain ⟨heq, rfl⟩ := leads_done.mp hdone
      obtain ⟨rfl, rfl⟩ := Prod.mk.inj heq
      obtain ⟨hs₂, hstopped₂⟩ := hs₁.memory (asks_reclaim c fun _ _ => trivial) hreclaim
      have htail : ∀ r ∈ lefts done, r.id ∈ ids s₂.site.rules →
          isPresent listing r.id = true := by
        intro r hr hmem
        obtain ⟨c', hc', hleft⟩ := List.mem_filterMap.mp hr
        have hbefore : r ∈ lefts (c :: done) :=
          List.mem_filterMap.mpr ⟨c', List.mem_cons_of_mem _ hc', hleft⟩
        refine hshown r hbefore ?_
        by_contra hlost
        have hretired : s.site.Retired r.id :=
          ⟨h.issued _ (mem_ids_of_mem hbefore), hlost⟩
        exact (retired_run (retired_run hretired hcompensation) hreclaim).2 hmem
      obtain ⟨rfl, rfl, ht⟩ := ih hs₂ (hstopped₂.trans hstopped₁) htail hlater
      exact ⟨rfl, rfl, ht⟩

/-- **A stopped plan is undone to its beginning.** -/
theorem halt_survives {cause : HaltCause} {skipped : Nat} {halt : Halt}
    (h : Survives start done todo s) (hstopped : s.site.stopped = true)
    (hleads : Leads Exposed.May (Completed.halt done cause skipped) s halt t) :
    halt.completed = done.reverse.map Completed.operation ∧
      halt.rolledBack = done.map Completed.operation ∧ halt.rollbackFailure = none ∧
      (specs t.site.rules).Perm (specs start) := by
  obtain ⟨⟨undone, failure⟩, s₁, hrollback, hdone⟩ := leads_bind.mp hleads
  obtain ⟨rfl, rfl⟩ := leads_done.mp hdone
  have hnone : Survives start done [] s :=
    ⟨h.faithful, h.placed.stop, h.issued, h.written⟩
  have hends : undone = done.map Completed.operation ∧ failure = none ∧
      Survives start [] [] t := by
    unfold Completed.rollback at hrollback
    cases done with
    | nil =>
        obtain ⟨heq, rfl⟩ := leads_done.mp hrollback
        obtain ⟨rfl, rfl⟩ := Prod.mk.inj heq
        exact ⟨rfl, rfl, hnone⟩
    | cons c done =>
        obtain ⟨reply, s₂, hlist, hundo⟩ := leads_bind.mp hrollback
        obtain ⟨u, hloses, hmay, -, hwritten⟩ := leads_listRules.mp hlist
        obtain ⟨hsite, hreply⟩ := Site.may_list hmay
        have hs₂ : Survives start (c :: done) [] s₂ :=
          (hnone.loses hloses).congr (by rw [hsite]) (by rw [hsite])
          (hwritten ▸ List.Subset.refl _)
        refine undoAll_survives hs₂
          (by rw [hsite]; exact hloses.stopped.trans hstopped) ?_ hundo
        intro r hr hmem
        refine isPresent_of_shown fun rules hrules => ?_
        rcases hreply with rfl | ⟨err, rfl⟩
        · obtain rfl := Option.some.inj hrules
          rwa [hsite] at hmem
        · exact absurd hrules (by simp [Except.toOption])
  obtain ⟨rfl, rfl, ht⟩ := hends
  refine ⟨rfl, rfl, rfl, ?_⟩
  simpa [faded] using ht.placed.balance

/-! ## Forwards -/

theorem Survives.cancelled {seen : Bool} (h : Survives start done todo s)
    (hmay : Exposed.May s .cancelled seen t) :
    Survives start done todo t ∧ t.site.stopped = (s.site.stopped || seen) := by
  obtain ⟨u, hloses, hsite, -, hwritten⟩ := hmay
  have ht : t.site = { u.site with stopped := u.site.stopped || seen } := hsite
  have hsubset : t.written ⊆ u.written := hwritten ▸ List.Subset.refl _
  refine ⟨(h.loses hloses).congr (by rw [ht]) (by rw [ht]) hsubset, ?_⟩
  rw [ht, ← hloses.stopped]

theorem asksOnce_attempt (op : Operation) : AsksOnce (attempt op).run := by
  unfold attempt
  cases op.kind <;> cases op.existing
  case delete.some e =>
      intro reply
      cases reply with
      | ok u => exact ⟨.ok e, rfl⟩
      | error err => exact ⟨.error err, rfl⟩
  case update.some e => exact asksOnce_request _
  case create.some e => exact asksOnce_request _
  case create.none => exact asksOnce_request _
  all_goals exact trivial

theorem attempt_written {r : Except RouterError RouterRule}
    (hop : op.IsGrounded s.site.rules)
    (h : Leads Answers (attempt op).run s r t) :
    ∀ id ∈ t.written, id ∈ s.written ∨
      ∃ applied, r = .ok applied ∧ op.kind ≠ .delete ∧ applied.id = id := by
  intro id hid
  rcases hop.cases with hk | ⟨e, he, hex, hk | hk⟩
  · have hrun : attempt op = addRule op.rule.spec := by
      unfold attempt
      rw [hk]
    rw [hrun] at h
    obtain ⟨-, -, hwritten⟩ := leads_addRule.mp h
    rw [hwritten] at hid
    cases r with
    | ok rule =>
        have hnow : id ∈ if s.site.stopped then s.written else rule.id :: s.written := hid
        split at hnow
        · exact Or.inl hnow
        · exact (List.mem_cons.mp hnow).symm.imp_right fun heq =>
            ⟨rule, rfl, by simp [hk], heq.symm⟩
    | error err => exact Or.inl hid
  · have hrun : attempt op = updateRule e.id op.rule.spec := by
      unfold attempt
      rw [hk, hex]
    rw [hrun] at h
    obtain ⟨hmay, -, hwritten⟩ := leads_updateRule.mp h
    rw [hwritten] at hid
    cases r with
    | ok rule =>
        obtain ⟨rfl, -, -⟩ := hmay
        have hnow :
            id ∈ if s.site.stopped then s.written.filter fun i => decide (i ≠ e.id)
              else e.id :: s.written := hid
        split at hnow
        · exact Or.inl (List.filter_sublist.subset hnow)
        · exact (List.mem_cons.mp hnow).symm.imp_right fun heq =>
            ⟨_, rfl, by simp [hk], heq.symm⟩
    | error err => exact Or.inl (noted_filter_subset _ _ hid)
  · have hrun : attempt op = removeRule e.id >>= fun _ => pure e := by
      unfold attempt
      rw [hk, hex]
    rw [hrun] at h
    obtain ⟨removed, hremove, rfl⟩ := leads_tryMap.mp h
    obtain ⟨-, -, hwritten⟩ := leads_removeRule.mp hremove
    rw [hwritten] at hid
    exact Or.inl (noted_filter_subset _ _ hid)

/-- **One operation is carried out or refused**, after rules were taken or not. -/
theorem attempt_survives {r : Except RouterError RouterRule}
    (h : Survives start done (op :: todo) s)
    (hleads : Leads Exposed.May (attempt op).run s r t) :
    (∃ applied, r = .ok applied ∧
        ∀ released, Survives start (⟨op, applied, released⟩ :: done) todo t) ∨
      (∃ err, r = .error err ∧ Survives start done (op :: todo) t ∧
        t.site.stopped = true) := by
  obtain ⟨u, hloses, hanswers⟩ := leads_of_amid (asksOnce_attempt op) Loses.refl hleads
  have hu := h.loses hloses
  have hop := hu.placed.isGrounded
  have hsite : Leads (Site.May True) (attempt op).run u.site r t.site :=
    hanswers.project Exposed.site And.left
  have hwritten := attempt_written hop hanswers
  rcases attempt_leads hop hsite with ⟨applied, rfl, happlies, hfaithful⟩ | ⟨err,
    rfl, hrefuses⟩
  · refine Or.inl ⟨applied, rfl, fun released => ?_⟩
    refine hu.forward (c := ⟨op, applied, released⟩) happlies (hfaithful released)
      (fun i hi => hsite.preserves (P := Site.Retired i) (fun hs hmay =>
        hs.step hmay) hi) ?_
    intro id hid
    refine (hwritten id hid).imp_right ?_
    rintro ⟨applied', heq, hk, rfl⟩
    obtain rfl := Except.ok.inj heq
    refine ⟨applied, ?_, rfl⟩
    cases hkind : op.kind with
    | delete => exact absurd hkind hk
    | create | update => simp [left?, hkind]
  · refine Or.inr ⟨err, rfl, hu.refused hrefuses fun id hid => ?_⟩
    rcases hwritten id hid with hid | ⟨applied, heq, -⟩
    · exact hid
    · exact absurd heq (by simp)

theorem executeAfter_survives {needed : List UInt16} {halt : Halt}
    (h : Survives start done todo s)
    (hleads :
      Leads Exposed.May (executeAfter needed done todo).run s (.error halt) t) :
    halt.completed <+: done.reverse.map Completed.operation ++ todo ∧
      halt.rolledBack = halt.completed.reverse ∧ halt.rollbackFailure = none ∧
      (specs t.site.rules).Perm (specs start) := by
  induction todo generalizing done s with
  | nil => exact absurd (leads_done.mp hleads).1 (by simp)
  | cons op todo ih =>
      -- wherever the plan stops, it has carried out what is before it
      have hstop : ∀ {cause skipped s halt}, Survives start done (op :: todo) s →
          s.site.stopped = true →
            Leads Exposed.May (Completed.halt done cause skipped) s halt t →
          halt.completed <+: done.reverse.map Completed.operation ++ op :: todo ∧
            halt.rolledBack = halt.completed.reverse ∧ halt.rollbackFailure = none ∧
            (specs t.site.rules).Perm (specs start) := by
        intro cause skipped s halt hs hstopped hhalt
        obtain ⟨hcompleted, hundone, hnone, hspecs⟩ := halt_survives hs hstopped hhalt
        refine ⟨?_, ?_, hnone, hspecs⟩
        · rw [hcompleted]
          exact List.prefix_append _ _
        · rw [hundone, hcompleted, ← List.map_reverse, List.reverse_reverse]
      rcases executeAfter_cons hleads with ⟨s₁, halt', hcancelled, hhalt, heq⟩ |
        ⟨s₁, err, s₂, halt', hcancelled, hattempt, hhalt, heq⟩ |
        ⟨s₁, applied, s₂, released, s₃, hcancelled, hattempt, hrelease, hlater⟩
      · obtain rfl := Except.error.inj heq
        obtain ⟨hs₁, hstopped⟩ := h.cancelled hcancelled
        exact hstop hs₁ (hstopped.trans (Bool.or_true _)) hhalt
      · obtain rfl := Except.error.inj heq
        rcases attempt_survives (h.cancelled hcancelled).1 hattempt with
          ⟨applied, heq, -⟩ | ⟨err', -, hs₂, hstopped⟩
        · exact absurd heq (by simp)
        · exact hstop hs₂ hstopped hhalt
      · rcases attempt_survives (h.cancelled hcancelled).1 hattempt with
          ⟨applied', heq, hsurvives⟩ | ⟨err, heq, -⟩
        · obtain rfl := Except.ok.inj heq
          have hreleases :=
            asks_releaseUnused needed op (Q := OnlyMemory) fun _ _ => trivial
          have hlast := ih ((hsurvives released).memory hreleases hrelease).1 hlater
          rw [List.reverse_cons, List.map_append, List.append_assoc] at hlast
          exact hlast
        · exact absurd heq (by simp)

/-- **An undone plan leaves the configurations as they were**, although rules that
it had written were taken, each at any moment before it was to be undone, and
whether or not the router could be looked at. Nothing of what was carried out is
left standing. -/
theorem execute_survives_vanishing {s : Site} {plan : List Operation} {halt : Halt}
    (hs : s.Sound) (hplan : Grounded s.rules plan)
    (h : Leads Exposed.May (execute plan).run ⟨s, []⟩ (.error halt) t) :
    halt.completed <+: plan ∧ halt.rolledBack = halt.completed.reverse ∧
      halt.rollbackFailure = none ∧ (specs t.site.rules).Perm (specs s.rules) := by
  have hstart : Survives s.rules [] plan ⟨s, []⟩ :=
    ⟨fun c hc => absurd hc List.not_mem_nil, .start_of_grounded hs hplan,
      fun id hid => absurd hid List.not_mem_nil, fun id hid =>
        absurd hid List.not_mem_nil⟩
  exact executeAfter_survives hstart h

end

end Plan

/-! ## A plan of which two rules are taken -/

namespace Sample

open Plan Exposed

def former : RouterRule := ⟨"a", (wish "http" 80 80).spec⟩

def halfway : List Operation :=
  [.update (wish "http" 80 8080) former .configurationMismatchSafe [], createHttps,
    .create (wish "admin" 9001 9000) .portNotYetExists]

def bearing (rules : List RouterRule) (issued : List String) (stopped : Bool) :
    Site :=
  ⟨rules, issued, .empty, stopped⟩

def latter : RouterRule := ⟨"a", (wish "http" 80 8080).spec⟩

def created : RouterRule := ⟨"b", (wish "https" 443 8443).spec⟩

def ending : Halt :=
  { cause := .failed (.create (wish "admin" 9001 9000) .portNotYetExists)
      (.api 500 "down")
    completed := halfway.take 2
    skipped := 0
    rolledBack := (halfway.take 2).reverse
    rollbackFailure := none }

/-- The overwritten rule is taken before the router is looked at, and the created
one after it. -/
theorem halfway_leads :
    Leads Exposed.May (execute halfway).run ⟨bearing [former] ["a"] false, []⟩
      (.error ending) ⟨bearing [⟨"c", former.spec⟩] ["c", "b", "a"] true, ["a"]⟩ := by
  have halone : ∀ {s r reply t}, Answers s r reply t → Exposed.May s r reply t :=
    fun h => ⟨_, Loses.refl _, h⟩
  refine leads_ask.mpr ⟨false, ⟨bearing [former] ["a"] false, []⟩,
    halone ⟨rfl, trivial, rfl⟩, ?_⟩
  refine leads_ask.mpr ⟨.ok latter, ⟨bearing [latter] ["a"] false, ["a"]⟩,
    halone ⟨⟨rfl, by decide, by rfl⟩, trivial, rfl⟩, ?_⟩
  refine leads_ask.mpr ⟨false, ⟨bearing [latter] ["a"] false, ["a"]⟩,
    halone ⟨rfl, trivial, rfl⟩, ?_⟩
  refine leads_ask.mpr ⟨.ok created,
    ⟨bearing [latter, created] ["b", "a"] false, ["b", "a"]⟩,
    halone ⟨⟨rfl, by decide, rfl⟩, trivial, rfl⟩, ?_⟩
  refine leads_ask.mpr ⟨false, ⟨bearing [latter, created] ["b", "a"] false, ["b", "a"]⟩,
    halone ⟨rfl, trivial, rfl⟩, ?_⟩
  refine leads_ask.mpr ⟨.error (.api 500 "down"),
    ⟨bearing [latter, created] ["b", "a"] true, ["b", "a"]⟩, halone ⟨rfl, rfl, rfl⟩, ?_⟩
  refine leads_ask.mpr ⟨.ok [created], ⟨bearing [created] ["b", "a"] true, ["b", "a"]⟩,
    ⟨_, ⟨["a"], by decide, rfl⟩, ⟨by rfl, by rfl⟩, trivial, rfl⟩, ?_⟩
  refine leads_ask.mpr ⟨.error (.notFound "b"), ⟨bearing [] ["b", "a"] true, ["a"]⟩,
    ⟨_, ⟨["b"], by decide, rfl⟩, ⟨fun _ => trivial, by rfl⟩,
      fun _ => ⟨by decide, "b", rfl⟩, by rfl⟩, ?_⟩
  refine leads_ask.mpr ⟨.ok ⟨"c", former.spec⟩,
    ⟨bearing [⟨"c", former.spec⟩] ["c", "b", "a"] true, ["a"]⟩,
    halone ⟨⟨rfl, by decide, rfl⟩, trivial, rfl⟩, ?_⟩
  exact .done _ _

theorem halfway_grounded : Grounded (bearing [former] ["a"] false).rules halfway := by
  refine ⟨fun op hop hk => ?_, by decide⟩
  simp only [halfway, List.mem_cons, List.not_mem_nil, or_false] at hop
  rcases hop with rfl | rfl | rfl
  · exact ⟨former, List.mem_singleton.mpr rfl, rfl⟩
  · exact absurd rfl hk
  · exact absurd rfl hk

end Sample

open Sample in
theorem Plan.execute_survives_vanishing_sample :
    ∃ t : Exposed, Leads Exposed.May (execute halfway).run
      ⟨bearing [former] ["a"] false, []⟩ (.error ending) t ∧
      t.site.rules = [⟨"c", former.spec⟩] ∧
      ending.completed <+: halfway ∧ ending.rolledBack = ending.completed.reverse ∧
      ending.rollbackFailure = none ∧ (specs t.site.rules).Perm (specs [former]) := by
  have hsound : (bearing [former] ["a"] false).Sound := ⟨by decide, by decide⟩
  exact ⟨_, halfway_leads, rfl,
    execute_survives_vanishing hsound halfway_grounded halfway_leads⟩

end PortForwarding
