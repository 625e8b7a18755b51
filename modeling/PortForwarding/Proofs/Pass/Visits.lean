import PortForwarding.Proofs.Pass.Convergence
import PortForwarding.Proofs.Plan.Account

/-!
# A Service that fails leaves the others alone

A periodic pass that has the list of the Services and the list of the rules goes
through the Services that it looks after one by one (`Toured`). How a visit to one
of them goes is told by what is asked for in it (`Visiting`): whatever fails
there, the pass goes on to the next Service, and only the signal to stop keeps it
from one. What it reports in the end are the visits, counted (`Counted`).

Nothing is supposed of the replies.
-/

namespace PortForwarding

open Script

def Request.Mutates : Request → Prop
  | .router call => call.isMutation = true
  | _ => False

namespace Fleet

/-! ## What is asked for in a visit -/

/-- **A drift is mended**, or its plan halts, which is told if it has not been
told lately. -/
inductive Correcting (drift : Drift) : List Exchange → Visit → Prop
  | corrected (during : List Exchange)
      (hexecute : Runs (Plan.execute drift.correctionPlan).run during (.ok ())) :
      Correcting drift
        (⟨.publish drift.reference (detectedNote drift), ()⟩ :: (during ++
          [⟨.memory (.forget (subject drift.service)), ()⟩,
            ⟨.publish drift.reference (correctedNote drift.correctionPlan), ()⟩]))
        (.corrected drift.correctionPlan.length)
  | halted (during : List Exchange) (halt : Halt) (decision : Decision)
      (told : List Exchange)
      (hexecute : Runs (Plan.execute drift.correctionPlan).run during (.error halt))
      (htold : told =
        if decision.surface then
          [⟨.publish drift.reference (haltedNote halt), ()⟩]
        else []) :
      Correcting drift
        (⟨.publish drift.reference (detectedNote drift), ()⟩ :: (during ++
          ⟨.memory (.observe (subject drift.service) halt.message), decision⟩ :: told))
        (.halted drift.correctionPlan.length halt)

/-- **A second look at the router**, with the plan that is handed on to be carried
out, if there is one. -/
inductive Revisiting (view : ServiceView) (desired : List DesiredRule) :
    List Exchange → Option (List Operation) → Visit → Prop
  | unlisted (e : RouterError) :
      Revisiting view desired [⟨.router .list, .error e⟩] none .unlisted
  | resolved (fresh : List RouterRule)
      (hcalm : (Drift.compare view.key view.reference desired fresh).any = false) :
      Revisiting view desired [⟨.router .list, .ok fresh⟩] none .calm
  | mended (fresh : List RouterRule) (log : List Exchange) (outcome : Visit)
      (hdrift : (Drift.compare view.key view.reference desired fresh).any = true)
      (hcorrecting :
        Correcting (.compare view.key view.reference desired fresh) log outcome) :
      Revisiting view desired (⟨.router .list, .ok fresh⟩ :: log)
        (some (Drift.compare view.key view.reference desired
        fresh).correctionPlan) outcome

/-- **A visit to a Service**, which is compared with the listing `rules`. -/
inductive Visiting (defaults : RuleDefaults) (rules : List RouterRule)
    (view : ServiceView) :
    List Exchange → Option (List Operation) → Visit → Prop
  /-- No rules would meet what the Service asks for. -/
  | unmet (e : DesiredError) (decision : Decision)
      (hunmet : Desired.rulesFor view defaults = .error e) :
      Visiting defaults rules view
        [⟨.memory (.observe (subject view.key) e.message), decision⟩] none .invalid
  /-- A port that it asks for is another Service's. -/
  | refused (desired : List DesiredRule) (c : PortConflict) (decision : Decision)
      (hmet : Desired.rulesFor view defaults = .ok desired) :
      Visiting defaults rules view
        [⟨.memory (.claim view.key (Desired.externalPorts desired)), .error c⟩,
          ⟨.memory (.observe (subject view.key)
          (DesiredError.conflict c).message), decision⟩] none
        .invalid
  | calm (desired : List DesiredRule)
      (hmet : Desired.rulesFor view defaults = .ok desired)
      (hcalm : (Drift.compare view.key view.reference desired rules).any = false) :
      Visiting defaults rules view
        [⟨.memory (.claim view.key (Desired.externalPorts desired)), .ok ()⟩] none .calm
  | drifted (desired : List DesiredRule) (log : List Exchange)
      (plan? : Option (List Operation))
      (outcome : Visit) (hmet : Desired.rulesFor view defaults = .ok desired)
      (hdrift : (Drift.compare view.key view.reference desired rules).any = true)
      (hrevisiting : Revisiting view desired log plan? outcome) :
      Visiting defaults rules view
        (⟨.memory (.claim view.key (Desired.externalPorts desired)), .ok ()⟩ ::
          ⟨.lock view.key, ()⟩ :: (log ++ [⟨.unlock view.key, ()⟩]))
        plan? outcome

variable {defaults : RuleDefaults} {rules : List RouterRule} {view : ServiceView}
  {drift : Drift} {desired : List DesiredRule} {log : List Exchange}
  {plan? : Option (List Operation)} {outcome : Visit}

theorem correcting_of_runs (h : Runs (correct drift) log outcome) :
    Correcting drift log outcome := by
  obtain ⟨_, ⟨⟩, _, rfl, hdetected, hrest⟩ := runs_bind.mp h
  obtain rfl := runs_request.mp hdetected
  obtain ⟨during, result, _, rfl, hexecute, hends⟩ := runs_bind.mp hrest
  cases result with
  | ok u =>
      obtain ⟨_, ⟨⟩, _, rfl, hforget, hlast⟩ := runs_bind.mp hends
      obtain rfl := runs_request.mp hforget
      obtain ⟨_, ⟨⟩, _, rfl, htold, hdone⟩ := runs_bind.mp hlast
      obtain rfl := runs_request.mp htold
      obtain ⟨rfl, rfl⟩ := runs_done.mp hdone
      exact .corrected during hexecute
  | error halt =>
      obtain ⟨_, decision, _, rfl, hobserve, hlast⟩ := runs_bind.mp hends
      obtain rfl := runs_request.mp hobserve
      cases hsurface : decision.surface with
      | true =>
          simp only [hsurface, if_true] at hlast
          obtain ⟨_, ⟨⟩, _, rfl, htold, hdone⟩ := runs_bind.mp hlast
          obtain rfl := runs_request.mp htold
          obtain ⟨rfl, rfl⟩ := runs_done.mp hdone
          exact .halted during halt decision _ hexecute (by simp [hsurface])
      | false =>
          simp only [hsurface] at hlast
          obtain ⟨rfl, rfl⟩ := runs_done.mp hlast
          exact .halted during halt decision _ hexecute (by simp [hsurface])

theorem revisiting_of_runs (h : Runs (revisit view desired) log outcome) :
    ∃ plan?, Revisiting view desired log plan? outcome := by
  obtain ⟨_, reply, _, rfl, hlist, hrest⟩ := runs_bind.mp h
  obtain rfl := runs_listRules.mp hlist
  cases reply with
  | error e =>
      obtain ⟨rfl, rfl⟩ := runs_done.mp hrest
      exact ⟨none, .unlisted e⟩
  | ok fresh =>
      dsimp only at hrest
      split at hrest
      · next hdrift =>
          exact ⟨_, .mended fresh _ outcome hdrift (correcting_of_runs hrest)⟩
      · next hcalm =>
          obtain ⟨rfl, rfl⟩ := runs_done.mp hrest
          exact ⟨none, .resolved fresh (by simpa using hcalm)⟩

theorem claimDesired_runs {result : Except DesiredError (List DesiredRule)}
    (h : Runs (Reconcile.claimDesired view defaults).run log result) :
    (∃ e, Desired.rulesFor view defaults = .error e ∧ log = [] ∧ result = .error e) ∨
    ∃ desired, Desired.rulesFor view defaults = .ok desired ∧
      ∃ reply : Except PortConflict Unit,
      log = [⟨.memory (.claim view.key (Desired.externalPorts desired)), reply⟩] ∧
      result = (reply.mapError DesiredError.conflict).map fun _ => desired := by
  unfold Reconcile.claimDesired at h
  cases hrules : Desired.rulesFor view defaults with
  | error e =>
      simp only [hrules] at h
      obtain ⟨rfl, rfl⟩ := runs_done.mp h
      exact Or.inl ⟨e, rfl, rfl, rfl⟩
  | ok desired =>
      simp only [hrules] at h
      obtain ⟨_, reply, _, rfl, hclaim, hdone⟩ := runs_bind.mp h
      obtain rfl := runs_request.mp hclaim
      refine Or.inr ⟨desired, rfl, reply, ?_⟩
      cases reply with
      | error c =>
          obtain ⟨rfl, rfl⟩ := runs_done.mp hdone
          exact ⟨rfl, rfl⟩
      | ok u =>
          obtain ⟨rfl, rfl⟩ := runs_done.mp hdone
          exact ⟨rfl, rfl⟩

theorem invalid_runs {e : DesiredError}
    (h : Runs (do
        let _ ← memory (.observe (subject view.key) e.message)
        return Visit.invalid) log outcome) :
    ∃ decision, log = [⟨.memory (.observe (subject view.key) e.message), decision⟩] ∧
      outcome = .invalid := by
  obtain ⟨_, decision, _, rfl, hobserve, hdone⟩ := runs_bind.mp h
  obtain rfl := runs_request.mp hobserve
  obtain ⟨rfl, rfl⟩ := runs_done.mp hdone
  exact ⟨decision, rfl, rfl⟩

theorem visiting_of_runs (h : Runs (visit defaults rules view) log outcome) :
    ∃ plan?, Visiting defaults rules view log plan? outcome := by
  obtain ⟨_, result, _, rfl, hclaim, hrest⟩ := runs_bind.mp h
  rcases claimDesired_runs hclaim with ⟨e, hunmet, rfl, rfl⟩ | ⟨desired, hmet,
    reply, rfl, rfl⟩
  · obtain ⟨decision, rfl, rfl⟩ := invalid_runs hrest
    exact ⟨none, .unmet e decision hunmet⟩
  · cases reply with
    | error c =>
        obtain ⟨decision, rfl, rfl⟩ := invalid_runs (e := .conflict c) hrest
        exact ⟨none, .refused desired c decision hmet⟩
    | ok u =>
        simp only [Except.mapError, Except.map] at hrest
        split at hrest
        · next hdrift =>
            obtain ⟨during, rfl, hrevisit⟩ := runs_locked.mp hrest
            obtain ⟨plan?, hrevisiting⟩ := revisiting_of_runs hrevisit
            exact ⟨plan?, .drifted desired during plan? outcome hmet hdrift hrevisiting⟩
        · next hcalm =>
            obtain ⟨rfl, rfl⟩ := runs_done.mp hrest
            exact ⟨none, .calm desired hmet (by simpa using hcalm)⟩

/-! ## What a visit does to the router -/

theorem Visiting.not_mutates (h : Visiting defaults rules view log none outcome) :
    ∀ x ∈ log, ¬x.1.Mutates := by
  cases h with
  | unmet e decision hunmet => simp [Request.Mutates]
  | refused desired c decision hmet => simp [Request.Mutates]
  | calm desired hmet hcalm => simp [Request.Mutates]
  | drifted desired log plan? outcome hmet hdrift hrevisiting =>
      cases hrevisiting with
      | unlisted e => simp [Request.Mutates, RouterCall.isMutation]
      | resolved fresh hcalm => simp [Request.Mutates, RouterCall.isMutation]

theorem Visiting.plan_eq (h : Visiting defaults rules view log plan? outcome) :
    outcome.isDrifted = plan?.isSome ∧
    outcome.operations = (plan?.map List.length).getD 0 := by
  cases h with
  | unmet e decision hunmet => exact ⟨rfl, rfl⟩
  | refused desired c decision hmet => exact ⟨rfl, rfl⟩
  | calm desired hmet hcalm => exact ⟨rfl, rfl⟩
  | drifted desired log plan? outcome hmet hdrift hrevisiting =>
      cases hrevisiting with
      | unlisted e => exact ⟨rfl, rfl⟩
      | resolved fresh hcalm => exact ⟨rfl, rfl⟩
      | mended fresh log outcome hstill hcorrecting =>
          cases hcorrecting <;> exact ⟨rfl, rfl⟩

/-- A visit that fails for want of rules or of a listing changes nothing on
the router. -/
theorem Visiting.not_mutates_of_failed
    (h : Visiting defaults rules view log plan? outcome)
    (hfailed : outcome = .invalid ∨ outcome = .unlisted) :
    ∀ x ∈ log, ¬x.1.Mutates := by
  have hnone : plan? = none := by
    have hplan := h.plan_eq.1
    rcases hfailed with rfl | rfl
    · simpa [Visit.isDrifted] using hplan
    · simpa [Visit.isDrifted] using hplan
  subst hnone
  exact h.not_mutates

theorem cancelled_of_halted {plan : List Operation} {halt : Halt}
    (h : Runs (Plan.execute plan).run log (.error halt))
    (hcancelled : halt.isCancelled = true) : ⟨.cancelled, true⟩ ∈ log := by
  have hseen : ∀ {watched}, Account.Accounted plan watched (.error halt) →
      ⟨.cancelled, true⟩ ∈ watched := by
    intro watched haccounted
    cases haccounted with
    | failed done op later calls call undoing e undone failure hplan hdone
        hfailed hundoing =>
        exact absurd hcancelled (by simp [Halt.isCancelled])
    | cancelled done later calls undoing undone failure hplan hlater hdone hundoing =>
        simp
  have hnone : List.Forall₂ Account.Carried ([] : List Completed).reverse [] := .nil
  exact (List.mem_filter.mp (hseen (Account.accounted_of_runs hnone h))).1

theorem Visiting.execute_of_halted {operations : Nat} {halt : Halt}
    (h : Visiting defaults rules view log plan? (.halted operations halt)) :
    ∃ plan during, during ⊆ log ∧
      Runs (Plan.execute plan).run during (.error halt) := by
  cases h with
  | drifted desired log plan? outcome hmet hdrift hrevisiting =>
      cases hrevisiting with
      | mended fresh log outcome hstill hcorrecting =>
          cases hcorrecting with
          | halted during halt decision told hexecute htold =>
              refine ⟨_, during, fun x hx => ?_, hexecute⟩
              simp [hx]

theorem Visiting.cancelled_of_endsPass
    (h : Visiting defaults rules view log plan? outcome)
    (hends : outcome.endsPass = true) : ⟨.cancelled, true⟩ ∈ log := by
  cases outcome with
  | halted operations halt =>
      obtain ⟨plan, during, hduring, hexecute⟩ := h.execute_of_halted
      exact hduring (cancelled_of_halted hexecute hends)
  | invalid | calm | unlisted | corrected operations =>
      exact absurd hends (by simp [Visit.endsPass])

/-! ## A pass through all Services -/

/-- A visit of a pass: the Service, what was asked and answered, the plan that was
handed on to be carried out, and how it ended. -/
structure Stop where
  view : ServiceView
  log : List Exchange
  plan? : Option (List Operation)
  outcome : Visit

/-- **A pass through the Services that are looked after**: each visit begins with
a look at the signal to stop, which is the only thing that keeps a Service from
being visited. -/
structure Toured (defaults : RuleDefaults) (views : List ServiceView)
    (rules : List RouterRule) (log : List Exchange) (stops : List Stop) :
    Prop where
  visiting : ∀ s ∈ stops, Visiting defaults rules s.view s.log s.plan? s.outcome
  exchanges : ∃ closing, (closing = [] ∨ closing = [⟨.cancelled, true⟩]) ∧
    log = stops.flatMap (fun s => ⟨.cancelled, false⟩ :: s.log) ++ closing
  /-- The Services are visited in order, none of them twice and none passed over. -/
  order : stops.map Stop.view <+: views
  complete : ⟨.cancelled, true⟩ ∉ log → stops.map Stop.view = views

theorem toured_of_runs {views : List ServiceView} {outcomes : List Visit}
    (h : Runs (visitAll defaults rules views) log outcomes) :
    ∃ stops, Toured defaults views rules log stops ∧
      outcomes = stops.map Stop.outcome := by
  induction views generalizing log outcomes with
  | nil =>
      obtain ⟨rfl, rfl⟩ := runs_done.mp h
      exact ⟨[], ⟨List.forall_mem_nil _, ⟨[], Or.inl rfl, rfl⟩, List.prefix_rfl,
        fun _ => rfl⟩, rfl⟩
  | cons view views ih =>
      obtain ⟨_, seen, _, rfl, hseen, hrest⟩ := runs_bind.mp h
      obtain rfl := runs_isCancelled.mp hseen
      cases seen with
      | true =>
          obtain ⟨rfl, rfl⟩ := runs_done.mp hrest
          refine ⟨[], ⟨List.forall_mem_nil _, ⟨_, Or.inr rfl, rfl⟩, List.nil_prefix,
            fun hnever => ?_⟩, rfl⟩
          exact absurd (by simp) hnever
      | false =>
          obtain ⟨during, outcome, _, rfl, hvisit, hlater⟩ := runs_bind.mp hrest
          obtain ⟨plan?, hvisiting⟩ := visiting_of_runs hvisit
          split at hlater
          · next hends =>
              -- the plan of this visit was halted by the signal to stop
              obtain ⟨rfl, rfl⟩ := runs_done.mp hlater
              refine ⟨[⟨view, during, plan?, outcome⟩], ⟨by simpa using hvisiting,
                ⟨[], Or.inl rfl, by simp⟩, ?_, fun hnever => ?_⟩, rfl⟩
              · exact List.prefix_append [view] views
              · exact absurd (by simp [hvisiting.cancelled_of_endsPass hends]) hnever
          · obtain ⟨others, _, _, rfl, hothers, hdone⟩ := runs_bind.mp hlater
            obtain ⟨rfl, rfl⟩ := runs_done.mp hdone
            obtain ⟨stops, htoured, rfl⟩ := ih hothers
            obtain ⟨closing, hclosing, rfl⟩ := htoured.exchanges
            refine ⟨⟨view, during, plan?, outcome⟩ :: stops,
              ⟨?_, ⟨closing, hclosing, by simp⟩, ?_, fun hnever => ?_⟩, rfl⟩
            · exact List.forall_mem_cons.mpr ⟨hvisiting, htoured.visiting⟩
            · exact List.cons_prefix_cons.mpr ⟨rfl, htoured.order⟩
            · have hrest := htoured.complete fun hmem => hnever (by simp [hmem])
              rw [List.map_cons, hrest]

/-! ## The numbers -/

/-- **The numbers of a pass are those of its visits.** -/
structure Counted (total : Nat) (log : List Exchange) (stops : List Stop)
    (summary : PassSummary) :
    Prop where
  services : summary.services = total
  skipped : summary.skipped = total - stops.length
  drifted : summary.drifted = stops.countP fun s => s.plan?.isSome
  corrected : summary.corrected = stops.countP fun s => s.outcome.isCorrected
  failed : summary.failed = stops.countP fun s => s.outcome.isFailed
  /-- The operations are those of all plans that were handed on to be
  carried out. -/
  operations : summary.operations = (stops.filterMap Stop.plan?).flatten.length
  /-- No Service counts twice. -/
  within : summary.corrected + summary.failed + summary.skipped ≤ summary.services
  mended : summary.corrected ≤ summary.drifted ∧
    summary.drifted ≤ summary.corrected + summary.failed
  cancelled : summary.skipped ≠ 0 → ⟨.cancelled, true⟩ ∈ log

/-- What is mended had come apart, what had come apart is mended or failed, and
nothing is both. -/
theorem countP_outcomes (outcomes : List Visit) :
    outcomes.countP Visit.isCorrected ≤ outcomes.countP Visit.isDrifted ∧
      outcomes.countP Visit.isDrifted ≤
        outcomes.countP Visit.isCorrected + outcomes.countP Visit.isFailed ∧
      outcomes.countP Visit.isCorrected + outcomes.countP Visit.isFailed ≤
        outcomes.length := by
  induction outcomes with
  | nil => simp
  | cons outcome outcomes ih =>
      simp only [List.countP_cons, List.length_cons]
      cases outcome <;> simp only [Visit.isCorrected, Visit.isDrifted,
        Visit.isFailed] <;> simp <;> omega

theorem operations_eq {stops : List Stop}
    (h : ∀ s ∈ stops, s.outcome.operations = (s.plan?.map List.length).getD 0) :
    (stops.map Stop.outcome).foldr (fun v total => v.operations + total) 0 =
      (stops.filterMap Stop.plan?).flatten.length := by
  induction stops with
  | nil => rfl
  | cons s stops ih =>
      obtain ⟨hs, hstops⟩ := List.forall_mem_cons.mp h
      rw [List.map_cons, List.foldr_cons, ih hstops, hs]
      cases hplan : s.plan? with
      | none => simp [List.filterMap_cons_none hplan]
      | some plan => simp [List.filterMap_cons_some hplan]

theorem Toured.counted {views : List ServiceView} {stops : List Stop}
    (h : Toured defaults views rules log stops) :
    Counted views.length log stops (.of views.length (stops.map Stop.outcome)) := by
  obtain ⟨hcorrected, hdrifted, hboth⟩ := countP_outcomes (stops.map Stop.outcome)
  have hlength : stops.length ≤ views.length := by simpa using h.order.length_le
  rw [List.length_map] at hboth
  refine
    { services := rfl
      skipped := by simp [PassSummary.of]
      drifted := ?_
      corrected := by simp [PassSummary.of, List.countP_map, Function.comp_def]
      failed := by simp [PassSummary.of, List.countP_map, Function.comp_def]
      operations := operations_eq fun s hs => (h.visiting s hs).plan_eq.2
      within := ?_
      mended := ⟨hcorrected, hdrifted⟩
      cancelled := fun hskipped => by_contra fun hnever => hskipped ?_ }
  · show (stops.map Stop.outcome).countP Visit.isDrifted = _
    rw [List.countP_map]
    exact List.countP_congr fun s hs => by simp [(h.visiting s hs).plan_eq.1]
  · simp only [PassSummary.of, List.length_map]
    omega
  · have hall := congrArg List.length (h.complete hnever)
    simp only [PassSummary.of, List.length_map] at hall ⊢
    omega

/-- A pass that has both lists goes through the Services that it looks after. -/
theorem visitAll_of_runs {services : List ServiceObject}
    {result : Except FleetError PassSummary}
    (h : Runs (pass defaults).run (⟨.store .list, .ok services⟩ :: ⟨.router .list,
      .ok rules⟩ :: log) result) :
    ∃ outcomes, Runs (visitAll defaults rules (managed services)) log outcomes ∧
      result = .ok (.of (managed services).length outcomes) := by
  rcases runs_tryBind.mp h with ⟨_, listed, _, hlog, hlist, hrest⟩ | ⟨_, hlist, -⟩
  · obtain rfl := runs_request.mp (runs_adapt_ok.mp hlist)
    obtain ⟨hreply, rfl⟩ := List.cons.inj hlog
    obtain rfl : services = listed := Except.ok.inj (eq_of_heq (Sigma.mk.inj hreply).2)
    rcases runs_tryBind.mp hrest with
      ⟨_, found, _, hlog, hrules, hvisits⟩ | ⟨_, hrules, -⟩
    · obtain rfl := runs_listRules.mp (runs_adapt_ok.mp hrules)
      obtain ⟨hreply, rfl⟩ := List.cons.inj hlog
      obtain rfl : rules = found := Except.ok.inj (eq_of_heq (Sigma.mk.inj hreply).2)
      obtain ⟨_, outcomes, _, rfl, hvisited, hdone⟩ := runs_liftThen.mp hvisits
      obtain ⟨rfl, rfl⟩ := runs_done.mp hdone
      exact ⟨outcomes, (List.append_nil _).symm ▸ hvisited, rfl⟩
    · obtain ⟨e, hfailed, -⟩ := runs_adapt_error.mp hrules
      obtain ⟨hreply, -⟩ := List.cons.inj (runs_listRules.mp hfailed)
      exact absurd (eq_of_heq (Sigma.mk.inj hreply).2) (by simp)
  · obtain ⟨e, hfailed, -⟩ := runs_adapt_error.mp hlist
    obtain ⟨hreply, -⟩ := List.cons.inj (runs_request.mp hfailed)
    exact absurd (eq_of_heq (Sigma.mk.inj hreply).2) (by simp)

/-- **A Service that fails leaves the others alone.** A pass that has both lists
succeeds, whatever is answered from then on. Unless the signal to stop is seen,
every Service that is looked after is visited once, in order of the listing; what
is reported are the visits, counted; and a Service that fails for want of rules or
of a second listing changes nothing on the router. -/
theorem pass_isolates_failures (defaults : RuleDefaults)
    (services : List ServiceObject) (rules : List RouterRule)
    (log : List Exchange) (result : Except FleetError PassSummary)
    (h : Runs (pass defaults).run (⟨.store .list, .ok services⟩ :: ⟨.router .list,
      .ok rules⟩ :: log) result) :
    ∃ summary stops, result = .ok summary ∧
      Toured defaults (managed services) rules log stops ∧
      Counted (managed services).length log stops summary ∧
      ∀ s ∈ stops, s.outcome = .invalid ∨ s.outcome = .unlisted →
        ∀ x ∈ s.log, ¬x.1.Mutates := by
  obtain ⟨outcomes, hvisits, rfl⟩ := visitAll_of_runs h
  obtain ⟨stops, htoured, rfl⟩ := toured_of_runs hvisits
  exact ⟨_, stops, rfl, htoured, htoured.counted,
    fun s hs => (htoured.visiting s hs).not_mutates_of_failed⟩

end Fleet

end PortForwarding

namespace PortForwarding.Sample

open Fleet Script

def misguided : ServiceObject :=
  { service with name := some "db", annotations := [(Mark.ports, "ftp")] }

def mixed : List ServiceObject :=
  [misguided, service, neighbour]

def choosy : (call : RouterCall) → call.Reply
  | .list => .ok []
  | .add spec =>
    if spec.slot.external = 80 then .error (.invalidResponse "no") else .ok ⟨"r1", spec⟩
  | .update id spec => .ok ⟨id, spec⟩
  | .remove _ => .ok ()
  | .ready => .ok true

def attending : Surroundings Memory := fun r m =>
  match r with
  | .router call => (choosy call, m)
  | .store .list => (.ok mixed, m)
  | .store (.get _) => (.ok service, m)
  | .store (.patch _ _) => (.ok (), m)
  | .memory call => call.answer 0 m
  | .publish _ _ | .lock _ | .unlock _ => ((), m)
  | .now => (.midnight .epoch, m)
  | .cancelled => (false, m)

def mixedLog : List Exchange :=
  ((trace attending (pass {}).run .empty).map Prod.fst).drop 2

end PortForwarding.Sample

namespace PortForwarding.Fleet

open Sample Script

theorem pass_isolates_failures_mixed :
    ∃ stops, Toured {} (managed mixed) [] mixedLog stops ∧
      Counted 3 mixedLog stops ⟨3, 2, 1, 2, 0, 2⟩ ∧
      stops.map Stop.view = managed mixed ∧
      ∀ s ∈ stops, s.outcome = .invalid ∨ s.outcome = .unlisted →
        ∀ x ∈ s.log, ¬x.1.Mutates := by
  have hruns := runs_trace attending (pass {}).run .empty
  have hlog : (trace attending (pass {}).run .empty).map Prod.fst =
      ⟨.store .list, .ok mixed⟩ :: ⟨.router .list, .ok []⟩ :: mixedLog := rfl
  have hresult : (run attending (pass {}).run .empty).1 = .ok ⟨3, 2, 1, 2, 0, 2⟩ := by
    decide +kernel
  rw [hlog, hresult] at hruns
  obtain ⟨summary, stops, heq, htoured, hcounted, hharmless⟩ :=
    pass_isolates_failures {} mixed [] mixedLog _ hruns
  obtain rfl := Except.ok.inj heq
  have hnever : ⟨.cancelled, true⟩ ∉ mixedLog := by
    intro hmem
    have hall : (mixedLog.all fun | ⟨.cancelled, seen⟩ => !seen | _ => true) = true := by
      decide +kernel
    exact absurd (List.all_eq_true.mp hall _ hmem) (by simp)
  exact ⟨stops, htoured, hcounted, htoured.complete hnever, hharmless⟩

end PortForwarding.Fleet
