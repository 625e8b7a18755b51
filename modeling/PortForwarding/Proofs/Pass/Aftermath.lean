import PortForwarding.Proofs.Pass.Anatomy
import PortForwarding.Proofs.Pass.Cleanup
import PortForwarding.Proofs.Pass.Reconcile
import PortForwarding.Proofs.Plan.Execution
import PortForwarding.Proofs.Service.View

/-!
# What a managed pass leaves behind

A pass that fails has not happened, as far as the Service shows: nothing is
written on it but the note of the failure, and whoever is told of it is warned
once at most (`Uncommitted`). Where the router may have been left with part of a
plan, the note stays as it was as well, and where the limiter holds the failure
back, nobody hears of it. A pass that succeeds tells every operation that it has
carried out, in order, and leaves no note of an earlier failure (`Committed`).

The router, the shared memory and the signal to stop may answer as they like, and
so may the API, except that a change that it refuses is not made.
-/

namespace PortForwarding.Reconcile

open Script Stored

/-! ## What is noticed of a pass -/

/-- Something that a pass does before the eyes of others. -/
inductive Notice where
  | told (object : ObjectReference) (note : Notification)
  | called (call : StoreCall) (reply : call.Reply)
  /-- A failure was observed, and this is what the limiter decided. -/
  | decided (subject error : String) (decision : Decision)

def notice? : Exchange → Option Notice
  | ⟨.publish object note, _⟩ => some (.told object note)
  | ⟨.store call, reply⟩ => some (.called call reply)
  | ⟨.memory (.observe subject error), decision⟩ => some (.decided subject error decision)
  | _ => none

def notices (log : List Exchange) : List Notice :=
  log.filterMap notice?

namespace Notice

def told? : Notice → Option (ObjectReference × Notification)
  | .told object note => some (object, note)
  | _ => none

def warning? : Notice → Option (ObjectReference × Notification)
  | .told object note => if note.severity = .warning then some (object, note) else none
  | _ => none

def called? : Notice → Option StoreCall
  | .called call _ => some call
  | _ => none

def written? : Notice → Option (List (String × Option String))
  | .called (.patch _ (.annotations changes)) (.ok _) => some changes
  | _ => none

def decided? : Notice → Option (String × String × Decision)
  | .decided subject error decision => some (subject, error, decision)
  | _ => none

end Notice

def listed? : Exchange → Option (List RouterRule)
  | ⟨.router .list, .ok rules⟩ => some rules
  | _ => none

def changed? : Exchange → Option RouterCall
  | ⟨.router call, _⟩ => if call.isMutation then some call else none
  | _ => none

/-- The call that carries an operation out; none if the operation has no target. -/
def callOf? (op : Operation) : Option RouterCall :=
  match op.kind, op.existing with
  | .create, _ => some (.add op.rule.spec)
  | .update, some e => some (.update e.id op.rule.spec)
  | .delete, some e => some (.remove e.id)
  | _, none => none

/-- **What a failed pass may leave behind.** -/
structure Uncommitted (view : ServiceView) (failure : PassFailure)
    (o o' : ServiceObject) (seen : List Notice) : Prop where
  /-- The API is asked for nothing but annotations of the Service. -/
  calls : ∀ call ∈ seen.filterMap Notice.called?,
    ∃ changes, call = .patch view.key (.annotations changes)
  rest : o' = { o with annotations := o'.annotations }
  annotations : ∀ name, name ≠ Mark.errorContext →
    o'.annotation? name = o.annotation? name
  written : seen.filterMap Notice.written? = [] ∨
    ∃ note, seen.filterMap Notice.written? = [[(Mark.errorContext, some note)]]
  warned : seen.filterMap Notice.warning? = [] ∨
    seen.filterMap Notice.warning? = [(view.reference, failureNote failure)]
  /-- The router may be left with part of the plan: this is told, and
  nothing noted. -/
  rollback : failure.rollbackFailed = true →
    seen.filterMap Notice.warning? = [(view.reference, failureNote failure)] ∧
      seen.filterMap Notice.called? = [] ∧ o' = o
  suppressed : ∃ decision,
    seen.filterMap Notice.decided? = [(view.key.text, failure.message, decision)] ∧
      (decision.surface = false → failure.rollbackFailed = false →
        seen.filterMap Notice.warning? = [] ∧
          seen.filterMap Notice.written? = [] ∧ o' = o)

/-- **What a successful pass leaves behind.** The plan is the one for the last
listing, with the takeovers that the first one called for. -/
structure Committed (view : ServiceView) (defaults : RuleDefaults)
    (plan : List Operation) (o' : ServiceObject) (log : List Exchange) :
    Prop where
  planned : ∃ desired first rules, Desired.rulesFor view defaults = .ok desired ∧
    (log.filterMap listed?).head? = some first ∧
    (log.filterMap listed?).getLast? = some rules ∧
    plan = planFor view.key desired rules
      (Takeover.revalidate (Takeover.detect view.key desired first) rules)
  carriedOut : (log.filterMap changed?).map some = plan.map callOf?
  told : (notices log).filterMap Notice.told? =
    plan.map fun op => (view.reference, appliedNote op)
  forgotten : o'.annotation? Mark.errorContext = none

variable {settings : CleanupSettings} {defaults : RuleDefaults}
  {view : ServiceView} {failure : PassFailure} {plan : List Operation}
  {s t : Stored} {x y z : Stored × List Exchange}

/-! ## Stages that nobody notices -/

/-- A request that nobody notices, and that is nothing to the Service. -/
def Unnoticed : Request → Prop
  | .store _ | .publish _ _ | .now | .memory (.observe _ _) => False
  | _ => True

theorem Backstage.unnoticed {r : Request} (h : Backstage r) : Unnoticed r := by
  cases r with
  | memory call =>
      cases call with
      | observe _ _ => exact h
      | _ => trivial
  | router _ | cancelled | lock _ | unlock _ => trivial
  | store _ | publish _ _ | now => exact h

theorem misses_unnoticed : Misses notice? Unnoticed := by
  intro r reply hr
  cases r with
  | memory call =>
      cases call with
      | observe _ _ => exact hr.elim
      | _ => rfl
  | router _ | cancelled | lock _ | unlock _ => rfl
  | store _ | publish _ _ | now => exact hr.elim

theorem Unnoticed.apart {r : Request} (h : Unnoticed r) : Apart r := by
  cases r with
  | memory _ | router _ | cancelled | lock _ | unlock _ | publish _ _ => trivial
  | store _ | now => exact h.elim

/-- From one moment to another this is noticed, and the Service stays as it is. -/
structure Shows (x y : Stored × List Exchange) (seen : List Notice) : Prop where
  object : y.1.object = x.1.object
  notices : notices y.2 = notices x.2 ++ seen

theorem Shows.trans {seen later : List Notice} (h : Shows x y seen)
    (h' : Shows y z later) : Shows x z (seen ++ later) := by
  refine ⟨h'.object.trans h.object, ?_⟩
  rw [h'.notices, h.notices, List.append_assoc]

theorem shows_of_way (h : Way (Recorded May) Unnoticed x y) : Shows x y [] := by
  refine ⟨?_, (h.unseen misses_unnoticed).trans (List.append_nil _).symm⟩
  apply h.preserves (P := fun z => z.1.object = x.1.object) _ rfl
  intro u r reply v hr hu hmay
  rw [hr.apart.may hmay.1]
  exact hu

theorem shows_of_backstage (h : Way (Recorded May) Backstage x y) : Shows x y [] :=
  shows_of_way (h.mono fun _ => Backstage.unnoticed)

theorem shows_forget (h : Leads (Recorded May) (forget view.key) x () y) :
    Shows x y [] :=
  shows_of_way (h.way (asks_forget view.key trivial trivial))

/-! ## Stages that are noticed -/

theorem shows_publish {object : ObjectReference} {note : Notification}
    (h : Recorded May x (.publish object note) () y) :
    Shows x y [.told object note] :=
  ⟨congrArg Stored.object h.1, picked_of_may h⟩

theorem shows_announce (h : Leads (Recorded May) (announce view plan) x () y) :
    Shows x y (plan.map fun op => .told view.reference (appliedNote op)) := by
  induction plan generalizing x with
  | nil =>
      obtain ⟨-, rfl⟩ := leads_done.mp h
      exact ⟨rfl, (List.append_nil _).symm⟩
  | cons op plan ih =>
      obtain ⟨u, z, hpublish, hrest⟩ := leads_bind.mp h
      exact (shows_publish (leads_request.mp hpublish)).trans (ih hrest)

theorem shows_refused {changes : List (String × Option String)} {e : StoreError}
    (h : Recorded May x (.store (.patch view.key (.annotations changes)))
      (.error e) y) :
    Shows x y [.called (.patch view.key (.annotations changes)) (.error e)] := by
  have hfailed : y.1 = { x.1 with failed := true } := h.1
  exact ⟨by rw [hfailed], picked_of_may h⟩

/-- Annotations can only fail to be written where there are some to write. -/
theorem annotate_fails {changes : List (String × Option String)} {e : StoreError}
    (h : Leads (Recorded May) (Mark.annotate view.key changes).run x (.error e) y) :
    Shows x y [.called (.patch view.key (.annotations changes)) (.error e)] := by
  unfold Mark.annotate at h
  split at h
  · exact absurd (leads_done.mp h).1 (by simp)
  · exact shows_refused (leads_request.mp h)

/-! ## A pass that fails -/

/-- What may have been noticed before a pass fails: nothing, or that the plan was
carried out and the Service could not be written on. -/
inductive Vain (view : ServiceView) : List Notice → Prop
  | nothing : Vain view []
  | refused (plan : List Operation) (changes : List (String × Option String))
      (e : StoreError) :
      Vain view (plan.map (fun op => .told view.reference (appliedNote op)) ++
        [.called (.patch view.key (.annotations changes)) (.error e)])

theorem converge_shows
    (h : Leads (Recorded May) (converge defaults view).run x (.error failure) y) :
    ∃ seen, Shows x y seen ∧ Vain view seen ∧
      (failure.rollbackFailed = true → seen = []) := by
  rcases converge_fails h with
    hway | ⟨e, plan, s₁, s₂, s₃, s₄, rfl, hway, hforget, hannounce, hannotate, hunlock⟩
  · exact ⟨[], shows_of_backstage hway, .nothing, fun _ => rfl⟩
  · refine ⟨_, ?_, .refused plan (successMarks view) e, fun hrollback => ?_⟩
    · have hquiet := (shows_of_backstage hway).trans (shows_forget hforget)
      have htold :=
        (hquiet.trans (shows_announce hannounce)).trans (annotate_fails hannotate)
      simpa using htold.trans (shows_of_backstage hunlock)
    · exact absurd hrollback (by simp [PassFailure.rollbackFailed])

/-- What is told of a plan that was carried out is not what is looked for. -/
theorem filterMap_announced {β : Type} {pick : Notice → Option β}
    (h : ∀ op, pick (.told view.reference (appliedNote op)) = none)
    (plan : List Operation) :
    (plan.map fun op => Notice.told view.reference (appliedNote op)).filterMap
      pick = [] := by
  rw [List.filterMap_map, List.filterMap_eq_nil_iff]
  intro op _
  exact h op

theorem Vain.filterMap_eq_nil {β : Type} {pick : Notice → Option β}
    {seen : List Notice} (h : Vain view seen)
    (htold : ∀ op, pick (.told view.reference (appliedNote op)) = none)
    (hcalled : ∀ changes e,
      pick (.called (.patch view.key (.annotations changes)) (.error e)) = none) :
    seen.filterMap pick = [] := by
  cases h with
  | nothing => rfl
  | refused plan changes e =>
      rw [List.filterMap_append, filterMap_announced htold,
        List.filterMap_cons_none (hcalled _ _)]
      rfl

theorem Vain.calls {seen : List Notice} (h : Vain view seen) :
    ∀ call ∈ seen.filterMap Notice.called?,
      ∃ changes, call = .patch view.key (.annotations changes) := by
  cases h with
  | nothing =>
      intro call hcall
      exact absurd hcall List.not_mem_nil
  | refused plan changes e =>
      intro call hcall
      rw [List.filterMap_append, filterMap_announced fun _ => rfl] at hcall
      exact ⟨changes, List.mem_singleton.mp hcall⟩

/-- **What is made of a failure**: it is suppressed; told but not noted; or told
and to be noted, which the API may refuse. -/
inductive Noted (view : ServiceView) (failure : PassFailure) (decision : Decision)
    (o : ServiceObject) : ServiceObject → List Notice → Prop
  | suppressed (clean : failure.rollbackFailed = false)
      (held : decision.surface = false) :
      Noted view failure decision o o [.decided view.key.text failure.message decision]
  | told (broken : failure.rollbackFailed = true) :
      Noted view failure decision o o [.decided view.key.text failure.message decision,
        .told view.reference (failureNote failure)]
  | refused (note : String) (e : StoreError) (clean : failure.rollbackFailed = false)
      (surfaced : decision.surface = true) :
      Noted view failure decision o o [.decided view.key.text failure.message decision,
        .told view.reference (failureNote failure),
        .called (.patch view.key (.annotations [(Mark.errorContext, some note)]))
          (.error e)]
  | written (note : String) (o' : ServiceObject) (clean : failure.rollbackFailed = false)
      (surfaced : decision.surface = true)
      (patched : Patched (.annotations [(Mark.errorContext, some note)]) o o') :
      Noted view failure decision o o' [.decided view.key.text failure.message decision,
        .told view.reference (failureNote failure),
        .called (.patch view.key (.annotations [(Mark.errorContext, some note)]))
          (.ok ())]

theorem recordFailure_noted (hkey : view.key = x.1.object.key)
    (h : Leads (Recorded May) (recordFailure view failure) x () y) :
    ∃ decision after, notices y.2 = notices x.2 ++ after ∧
      Noted view failure decision x.1.object y.1.object after := by
  obtain ⟨decision, u, hobserve, hrest⟩ := recordFailure_cases h
  have hdecided : Shows x u [.decided view.key.text failure.message decision] :=
    ⟨congrArg Stored.object hobserve.1, picked_of_may hobserve⟩
  rcases hrest with ⟨hclean, hheld, rfl⟩ | ⟨hbroken, hpublish⟩ |
    ⟨hclean, hsurfaced, v, time, w, reply, hpublish, hnow, hpatch⟩
  · rw [hdecided.object]
    exact ⟨decision, _, hdecided.notices, .suppressed hclean hheld⟩
  · have htold := hdecided.trans (shows_publish hpublish)
    rw [htold.object]
    exact ⟨decision, _, htold.notices, .told hbroken⟩
  · have htold := hdecided.trans (shows_publish hpublish)
    have hclock : w.1 = { v.1 with clock := time.instant } := hnow.1.2
    have hobject : w.1.object = x.1.object := by
      rw [hclock]
      exact htold.object
    have hread : notices w.2 = notices v.2 :=
      (picked_of_may hnow).trans (List.append_nil _)
    have hseen : notices y.2 =
        notices x.2 ++ ([.decided view.key.text failure.message decision] ++
          [.told view.reference (failureNote failure)] ++
            [.called (.patch view.key (.annotations [(Mark.errorContext, some
              (failureRecord view failure decision.sinceSurfaced time).encode)]))
              reply]) := by
      rw [← List.append_assoc, ← htold.notices, ← hread]
      exact picked_of_may hpatch
    refine ⟨decision, _, hseen, ?_⟩
    rw [← hobject] at hkey
    rcases may_patch hkey hpatch.1 with ⟨rfl, object, hpatched, hy⟩ | ⟨e, rfl, hy⟩
    · rw [hobject] at hpatched
      rw [hy]
      exact .written _ object hclean hsurfaced hpatched
    · rw [hy, hobject]
      exact .refused _ e hclean hsurfaced

theorem Noted.object {decision : Decision} {o o' : ServiceObject}
    {after : List Notice} (h : Noted view failure decision o o' after) :
    o' = { o with annotations := o'.annotations } ∧
      ∀ name, name ≠ Mark.errorContext → o'.annotation? name = o.annotation? name := by
  cases h with
  | suppressed | told | refused => exact ⟨rfl, fun _ _ => rfl⟩
  | written note _ _ _ patched =>
      refine ⟨patched.2, fun name hname => ?_⟩
      have hother : (name == Mark.errorContext) = false := beq_false_of_ne hname
      rw [patched.1 name]
      simp [List.lookup_cons, hother]

/-- What was noticed before a failure leaves no more behind than the
failure itself. -/
theorem Vain.uncommitted {decision : Decision} {o o' : ServiceObject}
    {before after : List Notice} (hvain : Vain view before)
    (hnothing : failure.rollbackFailed = true → before = [])
    (hnoted : Noted view failure decision o o' after) :
    Uncommitted view failure o o' (before ++ after) := by
  have hwritten : before.filterMap Notice.written? = [] :=
    hvain.filterMap_eq_nil (fun _ => rfl) fun _ _ => rfl
  have hwarned : before.filterMap Notice.warning? = [] :=
    hvain.filterMap_eq_nil (fun _ => rfl) fun _ _ => rfl
  have hdecided : before.filterMap Notice.decided? = [] :=
    hvain.filterMap_eq_nil (fun _ => rfl) fun _ _ => rfl
  obtain ⟨hrest, hannotations⟩ := hnoted.object
  constructor
  case calls =>
    intro call hcall
    rw [List.filterMap_append] at hcall
    rcases List.mem_append.mp hcall with hbefore | hafter
    · exact hvain.calls call hbefore
    · cases hnoted with
      | suppressed | told => exact absurd hafter List.not_mem_nil
      | refused | written => exact ⟨_, List.mem_singleton.mp hafter⟩
  case rest => exact hrest
  case annotations => exact hannotations
  case written =>
    rw [List.filterMap_append, hwritten]
    cases hnoted with
    | suppressed | told | refused => exact Or.inl rfl
    | written note => exact Or.inr ⟨note, rfl⟩
  case warned =>
    rw [List.filterMap_append, hwarned]
    cases hnoted with
    | suppressed => exact Or.inl rfl
    | told | refused | written => exact Or.inr rfl
  case rollback =>
    intro hbroken
    obtain rfl := hnothing hbroken
    cases hnoted with
    | told => exact ⟨rfl, rfl, rfl⟩
    | suppressed clean | refused _ _ clean | written _ _ clean =>
        exact absurd (hbroken.symm.trans clean) (by simp)
  case suppressed =>
    refine ⟨decision, ?_, ?_⟩
    · rw [List.filterMap_append, hdecided]
      cases hnoted <;> rfl
    · intro hheld hclean
      rw [List.filterMap_append, List.filterMap_append, hwarned, hwritten]
      cases hnoted with
      | suppressed => exact ⟨rfl, rfl, rfl⟩
      | told broken => exact absurd (broken.symm.trans hclean) (by simp)
      | refused _ _ _ surfaced | written _ _ _ surfaced =>
          exact absurd (surfaced.symm.trans hheld) (by simp)

theorem told_announced (view : ServiceView) (plan : List Operation) :
    (plan.map fun op => Notice.told view.reference (appliedNote op)).filterMap
      Notice.told? = plan.map fun op => (view.reference, appliedNote op) := by
  induction plan with
  | nil => rfl
  | cons op plan ih => exact congrArg _ ih

theorem uncommitted_of_leads (hkey : view.key = s.object.key)
    (hconverge :
      Leads (Recorded May) (converge defaults view).run (s, []) (.error failure) x)
    (hrecord : Leads (Recorded May) (recordFailure view failure) x () y) :
    Uncommitted view failure s.object y.1.object (notices y.2) := by
  obtain ⟨before, hshows, hvain, hnothing⟩ := converge_shows hconverge
  have hobject : x.1.object = s.object := hshows.object
  rw [← hobject] at hkey
  obtain ⟨decision, after, hseen, hnoted⟩ := recordFailure_noted hkey hrecord
  rw [hobject] at hnoted
  rw [hseen, hshows.notices]
  exact hvain.uncommitted hnothing hnoted

/-! ## A pass that succeeds -/

theorem planAgainstRouter_listed {key : ServiceKey} {desired : List DesiredRule}
    (h : Leads (Recorded May) (planAgainstRouter key desired).run x (.ok plan) y) :
    y.2.filterMap changed? = x.2.filterMap changed? ∧
    ∃ first more rules, y.2.filterMap listed? = x.2.filterMap listed? ++
      first :: more ∧
      (first :: more).getLast? = some rules ∧
      plan = planFor key desired rules
        (Takeover.revalidate (Takeover.detect key desired first) rules) := by
  have hway : Way (Recorded May) (fun r => r = .router .list) x y :=
    h.way (asks_planAgainstRouter key desired rfl)
  refine ⟨hway.unseen fun r reply hr => ?_, ?_⟩
  · subst hr
    rfl
  obtain ⟨first, u, hlist, hrest⟩ := leads_tryBind_ok.mp h
  have hfirst : u.2.filterMap listed? = x.2.filterMap listed? ++ [first] :=
    picked_of_may (leads_listRules.mp hlist)
  cases hdetect : Takeover.detect key desired first with
  | nil =>
      simp only [hdetect] at hrest
      obtain ⟨heq, rfl⟩ := leads_tryPure.mp hrest
      obtain rfl := Except.ok.inj heq
      exact ⟨first, [], first, hfirst, rfl, by rw [hdetect]; rfl⟩
  | cons op ops =>
      simp only [hdetect] at hrest
      obtain ⟨rules, v, hlist, hpure⟩ := leads_tryBind_ok.mp hrest
      obtain ⟨heq, rfl⟩ := leads_tryPure.mp hpure
      obtain rfl := Except.ok.inj heq
      refine ⟨first, [rules], rules, ?_, rfl, by rw [hdetect]⟩
      have hsecond : y.2.filterMap listed? = u.2.filterMap listed? ++ [rules] :=
        picked_of_may (leads_listRules.mp hlist)
      rw [hsecond, hfirst, List.append_assoc]
      rfl

theorem attempt_call {σ : Type} {may : Possible σ} {s t : σ} {op : Operation}
    {applied : RouterRule}
    (h : Leads may (Plan.attempt op).run s (.ok applied) t) :
    ∃ call reply, callOf? op = some call ∧ call.isMutation = true ∧ call ≠ .list ∧
      may s (.router call) reply t := by
  unfold Plan.attempt at h
  unfold callOf?
  cases hk : op.kind <;> cases hex : op.existing <;> simp only [hk, hex] at h
  case create.none => exact ⟨_, _, rfl, rfl, by simp, leads_addRule.mp h⟩
  case create.some e => exact ⟨_, _, rfl, rfl, by simp, leads_addRule.mp h⟩
  case update.some e => exact ⟨_, _, rfl, rfl, by simp, leads_updateRule.mp h⟩
  case delete.some e =>
    obtain ⟨u, v, hremove, hpure⟩ := leads_tryBind_ok.mp h
    obtain ⟨-, rfl⟩ := leads_tryPure.mp hpure
    exact ⟨_, _, rfl, rfl, by simp, leads_removeRule.mp hremove⟩
  case update.none => exact absurd (leads_done.mp h).1 (by simp)
  case delete.none => exact absurd (leads_done.mp h).1 (by simp)

def Offsite : Request → Prop
  | .router _ => False
  | _ => True

theorem Aside.offsite {r : Request} (h : Aside r) : Offsite r := by
  cases r with
  | router _ => exact h
  | store _ | memory _ | publish _ _ | cancelled | now | lock _ | unlock _ => trivial

theorem misses_offsite {β : Type} {pick : Exchange → Option β}
    (h : ∀ r reply, pick ⟨r, reply⟩ ≠ none → ∃ call, r = .router call) :
    Misses pick Offsite := by
  intro r reply hr
  by_contra hpicked
  obtain ⟨call, rfl⟩ := h r reply hpicked
  exact hr

theorem misses_listed : Misses listed? Offsite := by
  apply misses_offsite
  intro r reply hpicked
  cases r with
  | router call => exact ⟨call, rfl⟩
  | store _ | memory _ | publish _ _ | cancelled | now | lock _ | unlock _ =>
      exact absurd rfl hpicked

theorem misses_changed : Misses changed? Offsite := by
  apply misses_offsite
  intro r reply hpicked
  cases r with
  | router call => exact ⟨call, rfl⟩
  | store _ | memory _ | publish _ _ | cancelled | now | lock _ | unlock _ =>
      exact absurd rfl hpicked

/-- Where the router is not asked, no more is listed and nothing is changed. -/
structure Rests (x y : Stored × List Exchange) : Prop where
  listed : y.2.filterMap listed? = x.2.filterMap listed?
  changed : y.2.filterMap changed? = x.2.filterMap changed?

theorem rests_of_way (h : Way (Recorded May) Offsite x y) : Rests x y :=
  ⟨h.unseen misses_listed, h.unseen misses_changed⟩

/-- **A plan that is carried out** is one call after another, in its order. -/
theorem executeAfter_changed {needed : List UInt16} {done : List Completed}
    (h : Leads (Recorded May) (Plan.executeAfter needed done plan).run x (.ok ()) y) :
    y.2.filterMap listed? = x.2.filterMap listed? ∧
      (y.2.filterMap changed?).map some =
        (x.2.filterMap changed?).map some ++ plan.map callOf? := by
  -- along the plan: the signal to stop is looked at, the operation tried, and its
  -- port given back
  induction plan generalizing x done with
  | nil =>
      obtain ⟨-, rfl⟩ := leads_done.mp h
      exact ⟨rfl, (List.append_nil _).symm⟩
  | cons op plan ih =>
      rcases Plan.executeAfter_cons h with
        ⟨_, _, -, -, heq⟩ | ⟨_, _, _, _, -, -, -, heq⟩ |
        ⟨u, applied, v, released, w, hcancelled, hattempt, hrelease, hlater⟩
      · exact absurd heq (by simp)
      · exact absurd heq (by simp)
      · obtain ⟨call, reply, hcall, hmutation, hlist, hmay⟩ := attempt_call hattempt
        have hasked : Rests x u :=
          rests_of_way (.of_may (show Offsite .cancelled from trivial) hcancelled)
        have hreleased : Rests v w :=
          rests_of_way (hrelease.way (Plan.asks_releaseUnused needed op fun _ _ =>
            trivial))
        have hlisted : v.2.filterMap listed? = u.2.filterMap listed? := by
          rw [picked_of_may hmay]
          cases call with
          | list => exact absurd rfl hlist
          | add _ | update _ _ | remove _ | ready => exact List.append_nil _
        have hchanged : v.2.filterMap changed? = u.2.filterMap changed? ++ [call] := by
          rw [picked_of_may hmay]
          simp [changed?, hmutation]
        obtain ⟨hlistings, hchanges⟩ := ih hlater
        refine ⟨?_, ?_⟩
        · rw [hlistings, hreleased.listed, hlisted, hasked.listed]
        · rw [hchanges, hreleased.changed, hchanged, hasked.changed, List.map_append,
            List.append_assoc, List.map_cons (l := plan), hcall]
          rfl

/-- What comes of annotations that are written, if there are any to write. -/
theorem annotate_succeeds {changes : List (String × Option String)}
    (hkey : view.key = x.1.object.key)
    (h : Leads (Recorded May) (Mark.annotate view.key changes).run x (.ok ()) y) :
    (∀ name, y.1.object.annotation? name =
      (changes.lookup name).getD (x.1.object.annotation? name)) ∧
    (notices y.2).filterMap Notice.told? = (notices x.2).filterMap Notice.told? := by
  unfold Mark.annotate at h
  split at h
  · next hnone =>
      obtain ⟨-, rfl⟩ := leads_done.mp h
      obtain rfl := List.isEmpty_iff.mp hnone
      exact ⟨fun _ => rfl, rfl⟩
  · have hpatch : Recorded May x (.store (.patch view.key (.annotations changes)))
        (.ok ()) y :=
      leads_request.mp h
    refine ⟨?_, ?_⟩
    · rcases may_patch hkey hpatch.1 with ⟨-, object, hpatched, hy⟩ | ⟨e, heq, -⟩
      · rw [hy]
        exact hpatched.1
      · exact absurd heq (by simp)
    · have hseen : notices y.2 = notices x.2 ++
          [.called (.patch view.key (.annotations changes)) (.ok ())] :=
            picked_of_may hpatch
      rw [hseen, List.filterMap_append]
      exact List.append_nil _

/-- **A successful pass tells all that it has done.** -/
theorem committed_of_leads (hview : ServiceView.of? s.object = .ok view)
    (h : Leads (Recorded May) (converge defaults view).run (s, []) (.ok ()) y) :
    ∃ plan, Committed view defaults plan y.1.object y.2 := by
  obtain ⟨hkey, -⟩ := ServiceView.of?_ok hview
  obtain ⟨desired, x₁, x₂, hrules, hclaim, hlocked, hunlock⟩ := converge_succeeds h
  obtain ⟨plan, y₁, y₂, y₃, y₄, y₅, hplan, hexecute, hretain, hforget,
      hannounce, hannotate⟩ :=
    convergeLocked_ok hlocked
  have hclaims : Way (Recorded May) Aside (s, []) x₁ := hclaim
  have hplans : Way (Recorded May) Backstage x₁ y₁ :=
    hplan.way (asks_planAgainstRouter view.key desired trivial)
  have hexecutes : Way (Recorded May) Backstage y₁ y₂ :=
    hexecute.way (Plan.asks_executeAfter _ _ _ (fun _ => trivial) trivial
      (fun _ _ => trivial) fun _ _ => trivial)
  have hbefore : Shows (s, []) y₄ [] := by
    have hway := ((hclaims.mono fun _ => Aside.backstage).trans hplans).trans
      (hexecutes.trans (hretain.mono fun _ => Aside.backstage))
    exact (shows_of_backstage hway).trans (shows_forget hforget)
  have htold := hbefore.trans (shows_announce hannounce)
  have hobject : y₅.1.object = s.object := htold.object
  obtain ⟨hwritten, hunseen⟩ := annotate_succeeds (by rw [hobject, hkey]) hannotate
  have hafter := shows_of_backstage (hunlock.mono fun _ => Aside.backstage)
  have hrestsBefore : Rests (s, []) x₁ :=
    rests_of_way (hclaims.mono fun _ => Aside.offsite)
  have hrestsAfter : Rests y₂ y := by
    have hannounced : Way (Recorded May) Offsite y₄ y₅ :=
      hannounce.way (asks_announce plan fun _ => trivial)
    have hannotated : Way (Recorded May) Offsite y₅ x₂ :=
      hannotate.way (Mark.asks_annotate _ trivial)
    have hforgotten : Way (Recorded May) Offsite y₃ y₄ :=
      hforget.way (asks_forget view.key trivial trivial)
    exact rests_of_way (((hretain.mono fun _ => Aside.offsite).trans hforgotten).trans
      ((hannounced.trans hannotated).trans (hunlock.mono fun _ => Aside.offsite)))
  obtain ⟨hplanned, first, more, rules, hlistings, hlast, rfl⟩ :=
    planAgainstRouter_listed hplan
  obtain ⟨hlisted, hchanged⟩ := executeAfter_changed hexecute
  have hall : y.2.filterMap listed? = first :: more := by
    rw [hrestsAfter.listed, hlisted, hlistings, hrestsBefore.listed]
    rfl
  refine ⟨_, ⟨desired, first, rules, hrules, ?_, ?_, rfl⟩, ?_, ?_, ?_⟩
  · rw [hall]
    rfl
  · rw [hall]
    exact hlast
  · rw [hrestsAfter.changed, hchanged, hplanned, hrestsBefore.changed]
    rfl
  · have hnotices : notices y.2 = notices x₂.2 := by simpa using hafter.notices
    rw [hnotices, hunseen, htold.notices, List.nil_append, List.filterMap_append,
      told_announced]
    rfl
  · rw [hafter.object, hwritten, hobject, lookup_successMarks, if_pos rfl]
    rw [ServiceView.annotation?_of_seen hview]
    cases hcontext : s.object.annotation? Mark.errorContext <;> rfl

/-- **What a managed pass leaves behind**, whether it fails or succeeds. -/
theorem pass_aftermath {result : Except PassFailure Action} {log : List Exchange}
    (hview : ServiceView.of? s.object = .ok view)
    (hliving : view.deleting = false) (hqualifies : view.qualifies = true)
    (hfinalizer : view.hasFinalizer = true)
    (h : Leads (Recorded May) (pass settings defaults s.object).run (s, [])
      result (t, log)) :
    match result with
    | .error failure => Uncommitted view failure s.object t.object (notices log)
    | .ok _ => ∃ plan, Committed view defaults plan t.object log := by
  rw [pass_eq_managed hview hliving hqualifies hfinalizer] at h
  obtain ⟨hkey, -⟩ := ServiceView.of?_ok hview
  rcases managed_cases h with ⟨rfl, hconverge⟩ | ⟨failure, x, rfl, hconverge, hrecord⟩
  · show ∃ plan, Committed view defaults plan t.object log
    exact committed_of_leads hview hconverge
  · show Uncommitted view failure s.object t.object (notices log)
    exact uncommitted_of_leads hkey hconverge hrecord

end PortForwarding.Reconcile

/-! ## A router that is down, and one that lists a rule twice -/

namespace PortForwarding.Sample

open Reconcile Script

def noted : Stored :=
  { object := service.patch (.annotations [(Mark.errorContext, some "?")])
    gone := false
    failed := false
    clock := 0 }

def notedView : ServiceView :=
  { view with annotations := noted.object.annotations }

def viewOf (s : Stored) : ServiceView :=
  { view with annotations := s.object.annotations }

def doubled : (call : RouterCall) → call.Reply
  | .list => .ok twice.rules
  | .add spec | .update _ spec => .ok ⟨"r3", spec⟩
  | .remove _ => .ok ()
  | .ready => .ok true

def answering (router : (call : RouterCall) → call.Reply) : Surroundings Stored
  | .router call, s => (router call, s)
  | r, s => Stored.answer epoch r s

theorem answering_may (router : (call : RouterCall) → call.Reply) (r : Request)
    (s : Stored) :
    Stored.May s r (answering router r s).1 (answering router r s).2 := by
  cases r with
  | router call => exact rfl
  | store _ | memory _ | publish _ _ | cancelled | now | lock _ | unlock _ =>
      exact Stored.answer_may epoch_reading _ s

def recordedPass (router : (call : RouterCall) → call.Reply) :
    Except PassFailure Action × Stored × List Exchange :=
  run (recording (answering router)) (pass {} {} noted.object).run (noted, [])

theorem leads_recordedPass (router : (call : RouterCall) → call.Reply) :
    Leads (Recorded Stored.May) (pass {} {} noted.object).run (noted, [])
      (recordedPass router).1 (recordedPass router).2 :=
  leads_run (recording_may (answering_may router)) _ _

end PortForwarding.Sample

namespace PortForwarding.Reconcile

open Sample

theorem pass_aftermath_sample :
    Uncommitted notedView (.router (.unreachable "down")) noted.object
      (recordedPass Stored.refusal).2.1.object
        (notices (recordedPass Stored.refusal).2.2) ∧
    ∃ plan, Committed notedView {} plan (recordedPass doubled).2.1.object
      (recordedPass doubled).2.2 := by
  have hfails := leads_recordedPass Stored.refusal
  have hsucceeds := leads_recordedPass doubled
  have hfailure : (recordedPass Stored.refusal).1 =
      .error (.router (.unreachable "down")) := by
    decide +kernel
  have hsuccess : (recordedPass doubled).1 = .ok .awaitChange := by
    decide +kernel
  rw [hfailure] at hfails
  rw [hsuccess] at hsucceeds
  have hview : ServiceView.of? noted.object = .ok notedView := by
    decide +kernel
  constructor
  · exact pass_aftermath hview rfl (by decide) rfl hfails
  · exact pass_aftermath hview rfl (by decide) rfl hsucceeds

end PortForwarding.Reconcile
