import PortForwarding.Proofs.Pass.Asks
import PortForwarding.Proofs.Pass.Convergence
import PortForwarding.Proofs.Script.Runs
import PortForwarding.Proofs.Service.View

/-!
# The finalizer comes before the router

A rule that is made for a Service without the finalizer would stay behind when the
Service is deleted. So a pass for a Service asks nothing of the router unless the
object that it was given carries the finalizer; and a Service that asks for ports
without carrying it is given the finalizer in a pass of its own (`Guarded`). A
periodic pass lists the router for all Services at once, and whatever it does
after that it does in a visit to a Service that carries the finalizer
(`Attributed`).

Nothing is supposed of the replies.
-/

namespace PortForwarding

open Script

/-! ## What is asked for -/

def Request.OnRouter : Request → Prop
  | .router _ => True
  | _ => False

def Request.PutsOn : Request → Prop
  | .store (.patch _ (.finalizers names)) => Mark.finalizer ∈ names
  | _ => False

/-- **The finalizer is put on**, and nothing else is done: the Service is
read, and unless it has the finalizer by now its list of finalizers is written
with it. -/
inductive Attaching (key : ServiceKey) : List Exchange → Prop
  | unread (e : StoreError) : Attaching key [⟨.store (.get key), .error e⟩]
  | there (o : ServiceObject) (hthere : Mark.finalizer ∈ o.finalizers) :
      Attaching key [⟨.store (.get key), .ok o⟩]
  | put (o : ServiceObject) (reply : Except StoreError Unit)
      (hmissing : Mark.finalizer ∉ o.finalizers) :
      Attaching key [⟨.store (.get key), .ok o⟩,
        ⟨.store (.patch key (.finalizers (Mark.withOwn o.finalizers))), reply⟩]

/-- **How a pass for one Service goes with the finalizer.** -/
structure Guarded (service : ServiceObject) (log : List Exchange) : Prop where
  /-- The router is only asked for a Service that carries the finalizer. -/
  held : (∃ x ∈ log, x.1.OnRouter) → Mark.finalizer ∈ service.finalizers
  /-- Neither is it asked for a Service that asks for nothing and is not
  being deleted. -/
  idle : service.deleting = false →
    (∀ view, ServiceView.of? service = .ok view → view.qualifies = false) →
      ∀ x ∈ log, ¬x.1.OnRouter
  /-- A Service that asks for ports gets the finalizer first. -/
  attaches : ∀ view, ServiceView.of? service = .ok view → service.deleting = false →
    view.qualifies = true → Mark.finalizer ∉ service.finalizers →
      Attaching service.key log
  /-- A pass in which the finalizer is put on does nothing else. -/
  attached : (∃ x ∈ log, x.1.PutsOn) → Attaching service.key log

theorem Attaching.not_onRouter {key : ServiceKey} {log : List Exchange}
    (h : Attaching key log) : ∀ x ∈ log, ¬x.1.OnRouter := by
  cases h <;> simp [Request.OnRouter]

namespace Reconcile

variable {settings : CleanupSettings} {defaults : RuleDefaults}
  {service : ServiceObject} {view : ServiceView} {log : List Exchange}

theorem attaching_of_runs {key : ServiceKey} {result : Except StoreError Unit}
    (h : Runs (Mark.addFinalizer key).run log result) : Attaching key log := by
  rcases runs_tryBind.mp h with ⟨before, o, after, rfl, hget, hrest⟩ | ⟨e, hget, -⟩
  · obtain rfl := runs_request.mp hget
    split at hrest
    · next hthere =>
        obtain ⟨-, rfl⟩ := runs_done.mp hrest
        exact .there o (by simpa using hthere)
    · next hmissing =>
        obtain rfl := runs_request.mp hrest
        exact .put o result (by simpa using hmissing)
  · obtain rfl := runs_request.mp hget
    exact .unread e

theorem not_putsOn_withoutOwn (key : ServiceKey) (names : List String) :
    ¬(Request.store (.patch key (.finalizers (Mark.withoutOwn names)))).PutsOn := by
  simp [Request.PutsOn, Mark.withoutOwn]

/-! ## The stages of a pass -/

theorem asks_cleanUp_not_putsOn (settings : CleanupSettings) (view : ServiceView) :
    Asks (fun r => ¬r.PutsOn) (cleanUp settings view).run :=
  asks_cleanUp settings view (fun _ => not_false) (fun _ => not_false)
    (fun _ => not_false) not_false
    (not_putsOn_withoutOwn _) (fun _ => not_false) not_false not_false not_false

/-- A Service that is being deleted without the finalizer is none of the
router's business. -/
theorem asks_cleanUp_not_onRouter (settings : CleanupSettings)
    (hfree : view.hasFinalizer = false) :
    Asks (fun r => ¬r.OnRouter) (cleanUp settings view).run := by
  unfold cleanUp
  rw [if_neg (by simp [hfree])]
  exact Asks.tryBind (Asks.lift (asks_request not_false)) fun _ => trivial

theorem asks_managed_not_putsOn (defaults : RuleDefaults) (view : ServiceView) :
    Asks (fun r => ¬r.PutsOn) (managed defaults view).run :=
  asks_managed defaults view (fun _ => not_false) (fun _ => not_false)
    (fun _ => not_false)
    (fun _ => not_false) not_false not_false not_false not_false

/-- A Service that asks for nothing is let go without a word to the router. -/
theorem asks_letGo_idle (view : ServiceView) :
    Asks (fun r => ¬r.OnRouter ∧ ¬r.PutsOn) (letGo view).run :=
  asks_letGo view ⟨not_false, not_false⟩ ⟨not_false, not_false⟩
    (fun names => ⟨not_false, not_putsOn_withoutOwn view.key names⟩)
    ⟨not_false, not_false⟩ ⟨not_false, not_false⟩ ⟨not_false, not_false⟩

/-! ## A pass for one Service -/

/-- A pass for a Service with the finalizer that is being deleted or asks
for ports. -/
theorem guarded_of_held (hheld : Mark.finalizer ∈ service.finalizers)
    (hview : ServiceView.of? service = .ok view)
    (hasking : service.deleting = true ∨ view.qualifies = true)
    (hputs : ∀ x ∈ log, ¬x.1.PutsOn) : Guarded service log where
  held := fun _ => hheld
  idle := by
    intro hliving hneedless
    rcases hasking with hdeleting | hqualifies
    · exact absurd (hdeleting.symm.trans hliving) (by simp)
    · exact absurd (hqualifies.symm.trans (hneedless view hview)) (by simp)
  attaches := fun _ _ _ _ hmissing => absurd hheld hmissing
  attached := fun ⟨x, hx, hon⟩ => absurd hon (hputs x hx)

/-- A pass that asks neither for the router nor for the finalizer, for a Service
that has no need of them. -/
theorem guarded_of_quiet
    (hneedless : ∀ view, ServiceView.of? service = .ok view →
      service.deleting = false → view.qualifies = true →
      Mark.finalizer ∈ service.finalizers)
    (hquiet : ∀ x ∈ log, ¬x.1.OnRouter ∧ ¬x.1.PutsOn) : Guarded service log where
  held := fun ⟨x, hx, hrouter⟩ => absurd hrouter (hquiet x hx).1
  idle := fun _ _ x hx => (hquiet x hx).1
  attaches := fun v hv hliving hasking hmissing =>
    absurd (hneedless v hv hliving hasking) hmissing
  attached := fun ⟨x, hx, hputs⟩ => absurd hputs (hquiet x hx).2

theorem guarded_of_attaching (hattaching : Attaching service.key log) :
    Guarded service log where
  held := fun ⟨x, hx, hrouter⟩ => absurd hrouter (hattaching.not_onRouter x hx)
  idle := fun _ _ => hattaching.not_onRouter
  attaches := fun _ _ _ _ _ => hattaching
  attached := fun _ => hattaching

theorem guarded_of_cleanUp (hview : ServiceView.of? service = .ok view)
    (hdeleting : service.deleting = true) {result : Except PassFailure Action}
    (h : Runs (cleanUp settings view).run log result) : Guarded service log := by
  obtain ⟨-, -, hfinalizer⟩ := ServiceView.of?_ok hview
  have hputs := (asks_cleanUp_not_putsOn settings view).runs h
  cases hheld : view.hasFinalizer with
  | true =>
      refine guarded_of_held ?_ hview (Or.inl hdeleting) hputs
      simpa [hheld] using hfinalizer
  | false =>
      have hrouter := (asks_cleanUp_not_onRouter settings hheld).runs h
      refine guarded_of_quiet (fun v hv hliving => ?_) fun x hx =>
        ⟨hrouter x hx, hputs x hx⟩
      exact absurd (hdeleting.symm.trans hliving) (by simp)

/-- A Service that is not being deleted: it is let go, given the finalizer,
or converged. -/
theorem guarded_of_living (hview : ServiceView.of? service = .ok view)
    (hliving : view.deleting = false) {result : Except PassFailure Action}
    (h : Runs (passFor settings defaults view).run log result) :
    Guarded service log := by
  obtain ⟨hkey, -, hfinalizer⟩ := ServiceView.of?_ok hview
  unfold passFor at h
  rw [if_neg (by simp [hliving])] at h
  split at h
  · next hneedless =>
      have hquiet : Asks (fun r => ¬r.OnRouter ∧ ¬r.PutsOn) (do
          if view.hasFinalizer then (letGo view).adapt PassFailure.store
          return Action.awaitChange : ExceptT PassFailure Script Action).run := by
        split
        · exact Asks.tryBind (Asks.adapt (asks_letGo_idle view)) fun _ => trivial
        · exact trivial
      refine guarded_of_quiet (fun v hv _ hasking => ?_) (hquiet.runs h)
      obtain rfl := Except.ok.inj (hv.symm.trans hview)
      simp [hasking] at hneedless
  · next hasking =>
      have hqualifies : view.qualifies = true := by simpa using hasking
      split at h
      · rcases runs_tryBind.mp h with ⟨before, _, after, rfl, hadd, hdone⟩ | ⟨e, hadd, -⟩
        · obtain ⟨-, rfl⟩ := runs_done.mp hdone
          obtain ⟨_, hadded, -⟩ := runs_adapt.mp hadd
          rw [List.append_nil]
          exact guarded_of_attaching (hkey ▸ attaching_of_runs hadded)
        · obtain ⟨_, hadded, -⟩ := runs_adapt.mp hadd
          exact guarded_of_attaching (hkey ▸ attaching_of_runs hadded)
      · next hheld =>
          refine guarded_of_held ?_ hview (Or.inr hqualifies)
            ((asks_managed_not_putsOn defaults view).runs h)
          simpa [hfinalizer] using hheld

/-- **A pass for one Service asks the router only where the finalizer is on.** -/
theorem guarded_of_runs {result : Except PassFailure Action}
    (h : Runs (pass settings defaults service).run log result) :
    Guarded service log := by
  unfold pass at h
  cases hview : ServiceView.of? service with
  | error e =>
      simp only [hview] at h
      obtain ⟨-, rfl⟩ := runs_done.mp h
      refine guarded_of_quiet (fun v hv => ?_) fun x hx => absurd hx List.not_mem_nil
      exact absurd (hview.symm.trans hv) (by simp)
  | ok view =>
      simp only [hview] at h
      cases hdeleting : view.deleting with
      | true =>
          unfold passFor at h
          rw [if_pos hdeleting] at h
          exact guarded_of_cleanUp hview
            (ServiceView.deleting_of_seen hview ▸ hdeleting) h
      | false => exact guarded_of_living hview hdeleting h

end Reconcile

/-! ## A periodic pass -/

/-- What was done in a visit to a Service, which has the finalizer and asks
for ports. -/
structure Visited (defaults : RuleDefaults) (rules : List RouterRule)
    (service : ServiceObject) (log : List Exchange) : Prop where
  held : Mark.finalizer ∈ service.finalizers
  living : service.deleting = false
  visit : ∃ view outcome, ServiceView.of? service = .ok view ∧ view.qualifies = true ∧
    Runs (Fleet.visit defaults rules view) log outcome

/-- **Whatever is done in a periodic pass** is done to look at the signal to stop,
to list the Services and the rules, or in the visit to a Service of the list. -/
inductive Attributed (defaults : RuleDefaults) : List Exchange → Prop
  | unlisted (e : StoreError) : Attributed defaults [⟨.store .list, .error e⟩]
  | blind (services : List ServiceObject) (e : RouterError) :
      Attributed defaults [⟨.store .list, .ok services⟩, ⟨.router .list, .error e⟩]
  | visited (services : List ServiceObject) (rules : List RouterRule)
      (visits : List (ServiceObject × List Exchange)) (closing : List Exchange)
      (horder : (visits.map Prod.fst).Sublist services)
      (hvisits : ∀ v ∈ visits, Visited defaults rules v.1 v.2)
      (hclosing : closing = [] ∨ closing = [⟨.cancelled, true⟩]) :
      Attributed defaults (⟨.store .list, .ok services⟩ :: ⟨.router .list, .ok rules⟩ ::
        (visits.flatMap (fun v => ⟨.cancelled, false⟩ :: v.2) ++ closing))

namespace Fleet

variable {defaults : RuleDefaults} {rules : List RouterRule} {log : List Exchange}

/-- A Service that a periodic pass looks after has the finalizer and asks
for ports. -/
theorem visited_of_managed {service : ServiceObject} {view : ServiceView}
    (hview : ServiceView.of? service = .ok view)
    (hmanaged : isManaged view = true) {outcome : Visit}
    (h : Runs (visit defaults rules view) log outcome) :
    Visited defaults rules service log := by
  obtain ⟨-, -, hfinalizer⟩ := ServiceView.of?_ok hview
  obtain ⟨⟨hheld, hliving⟩, hqualifies⟩ :
    (view.hasFinalizer = true ∧ view.deleting = false) ∧
      view.qualifies = true := by simpa [isManaged] using hmanaged
  refine ⟨?_, ServiceView.deleting_of_seen hview ▸ hliving, view, outcome, hview,
    hqualifies, h⟩
  simpa [hheld] using hfinalizer

theorem managed_cons (service : ServiceObject) (services : List ServiceObject) :
    (∃ view, ServiceView.of? service = .ok view ∧ isManaged view = true ∧
      managed (service :: services) = view :: managed services) ∨
    managed (service :: services) = managed services := by
  unfold managed
  cases hview : ServiceView.of? service with
  | error e =>
      right
      rw [List.filterMap_cons_none (by rw [hview]; rfl)]
  | ok view =>
      rw [List.filterMap_cons_some (by rw [hview]; rfl)]
      by_cases hmanaged : isManaged view = true
      · exact Or.inl ⟨view, rfl, hmanaged, List.filter_cons_of_pos hmanaged⟩
      · exact Or.inr (List.filter_cons_of_neg hmanaged)

theorem visits_of_runs (services : List ServiceObject) {outcomes : List Visit}
    (h : Runs (visitAll defaults rules (managed services)) log outcomes) :
    ∃ (visits : List (ServiceObject × List Exchange)) (closing : List Exchange),
      (visits.map Prod.fst).Sublist services ∧
        (∀ v ∈ visits, Visited defaults rules v.1 v.2) ∧
      (closing = [] ∨ closing = [⟨.cancelled, true⟩]) ∧
      log = visits.flatMap (fun v => ⟨.cancelled, false⟩ :: v.2) ++ closing := by
  induction services generalizing log outcomes with
  | nil =>
      obtain ⟨-, rfl⟩ := runs_done.mp h
      exact ⟨[], [], .slnil, nofun, Or.inl rfl, rfl⟩
  | cons service services ih =>
      rcases managed_cons service services with ⟨view, hview, hmanaged, heq⟩ | heq
      · rw [heq] at h
        obtain ⟨before, seen, after, rfl, hseen, hrest⟩ := runs_bind.mp h
        obtain rfl := runs_isCancelled.mp hseen
        cases seen with
        | true =>
            obtain ⟨-, rfl⟩ := runs_done.mp hrest
            exact ⟨[], _, List.nil_sublist _, nofun, Or.inr rfl, rfl⟩
        | false =>
            obtain ⟨during, outcome, later, rfl, hvisit, hlater⟩ := runs_bind.mp hrest
            have hvisited := visited_of_managed hview hmanaged hvisit
            split at hlater
            · obtain ⟨-, rfl⟩ := runs_done.mp hlater
              refine ⟨[(service, during)], [], ?_, ?_, Or.inl rfl, by simp⟩
              · exact List.Sublist.cons_cons service (List.nil_sublist _)
              · simpa using hvisited
            · obtain ⟨others, _, last, rfl, hothers, hdone⟩ := runs_bind.mp hlater
              obtain ⟨-, rfl⟩ := runs_done.mp hdone
              obtain ⟨visits, closing, horder, hvisits, hclosing, rfl⟩ := ih hothers
              refine ⟨(service, during) :: visits, closing, ?_, ?_, hclosing, by simp⟩
              · exact horder.cons_cons service
              · exact List.forall_mem_cons.mpr ⟨hvisited, hvisits⟩
      · rw [heq] at h
        obtain ⟨visits, closing, horder, hrest⟩ := ih h
        exact ⟨visits, closing, horder.cons service, hrest⟩

/-- **A periodic pass calls the router for Services with the finalizer only.** -/
theorem attributed_of_runs {result : Except FleetError PassSummary}
    (h : Runs (pass defaults).run log result) : Attributed defaults log := by
  rcases runs_tryBind.mp h with ⟨_, services, after, rfl, hlist, hrest⟩ | ⟨_, hlist, -⟩
  · obtain rfl := runs_request.mp (runs_adapt_ok.mp hlist)
    rcases runs_tryBind.mp hrest with ⟨_, rules, during, rfl, hrules,
      hvisit⟩ | ⟨_, hrules, -⟩
    · obtain rfl := runs_listRules.mp (runs_adapt_ok.mp hrules)
      obtain ⟨_, outcomes, _, rfl, hvisits, hdone⟩ := runs_liftThen.mp hvisit
      obtain ⟨-, rfl⟩ := runs_done.mp hdone
      obtain ⟨visits, closing, horder, hvisited, hclosing, rfl⟩ :=
        visits_of_runs services hvisits
      rw [List.append_nil]
      exact .visited services rules visits closing horder hvisited hclosing
    · obtain ⟨e, hlisted, -⟩ := runs_adapt_error.mp hrules
      obtain rfl := runs_listRules.mp hlisted
      exact .blind services e
  · obtain ⟨e, hlisted, -⟩ := runs_adapt_error.mp hlist
    obtain rfl := runs_request.mp hlisted
    exact .unlisted e

end Fleet

/-- **No router call without the finalizer**, whatever the router, the API and the
reservations answer, and whenever the signal to stop is given. -/
theorem finalizer_before_router :
    (∀ (settings : CleanupSettings) (defaults : RuleDefaults) (service : ServiceObject)
      (log : List Exchange) (result : Except PassFailure Action),
      Runs (Reconcile.pass settings defaults service).run log result →
        Guarded service log) ∧
    ∀ (defaults : RuleDefaults) (log : List Exchange)
      (result : Except FleetError PassSummary),
      Runs (Fleet.pass defaults).run log result → Attributed defaults log :=
  ⟨fun _ _ _ _ _ => Reconcile.guarded_of_runs, fun _ _ _ => Fleet.attributed_of_runs⟩

end PortForwarding

/-! ## A Service that is new -/

namespace PortForwarding.Sample

open Script

def newcomer : ServiceObject :=
  { service with finalizers := [] }

def arrivals : Scene :=
  { fleet with services := [newcomer, neighbour] }

def onArrival {α : Type} (script : Script α) : List Exchange :=
  (trace Scene.answer script arrivals).map Prod.fst

end PortForwarding.Sample

namespace PortForwarding

open Sample Script

theorem finalizer_before_router_sample :
    Attaching newcomer.key (onArrival (Reconcile.pass {} {} newcomer).run) ∧
    Guarded neighbour (onArrival (Reconcile.pass {} {} neighbour).run) ∧
    Attributed {} (onArrival (Fleet.pass {}).run) := by
  obtain ⟨hpass, hfleet⟩ := finalizer_before_router
  refine ⟨?_, hpass {} {} neighbour _ _ (runs_trace _ _ _),
    hfleet {} _ _ (runs_trace _ _ _)⟩
  have hnewcomer := hpass {} {} newcomer _ _ (runs_trace Scene.answer _ arrivals)
  exact hnewcomer.attaches { view with hasFinalizer := false } rfl rfl
    (by decide) (by decide)

end PortForwarding
