import PortForwarding.Proofs.Pass.Asks
import PortForwarding.Proofs.Script.Recorded

/-!
# How a managed pass goes

A pass for a Service that is finalized and asks for ports is taken apart here
once, for whatever surroundings: how it succeeds (`converge_succeeds`), where it
can fail (`converge_fails`), and what is made of a failure
(`recordFailure_cases`). Most of what it does shows neither on the Service nor to
anybody who is told of it (`Backstage`).
-/

namespace PortForwarding.Reconcile

open Script

variable {σ : Type} {may : Possible σ} {settings : CleanupSettings}
  {defaults : RuleDefaults} {service : ServiceObject} {view : ServiceView}
  {failure : PassFailure} {s t : σ}

/-! ## What does not show -/

/-- Something between passes: who holds what, and whose turn it is. -/
def Aside : Request → Prop
  | .memory (.claim _ _) | .memory (.retain _ _) | .memory (.release _ _)
  | .memory (.resetRetries _) | .lock _ | .unlock _ => True
  | _ => False

def Backstage : Request → Prop
  | .router _ | .cancelled => True
  | r => Aside r

/-- Something that a pass does until its plan has been carried out. -/
def Preparing : Request → Prop
  | .router _ | .cancelled | .lock _ | .unlock _ => True
  | .memory (.claim _ _) | .memory (.retain _ _) | .memory (.release _ _) => True
  | _ => False

theorem Preparing.backstage {r : Request} (h : Preparing r) : Backstage r := by
  cases r with
  | memory call =>
      cases call with
      | claim _ _ | retain _ _ | release _ _ => trivial
      | releaseAll _ | observe _ _ | remaining _ | forget _ | countRetry _
      | resetRetries _ =>
          exact h.elim
  | router _ | cancelled | lock _ | unlock _ => trivial
  | store _ | publish _ _ | now => exact h.elim

theorem Aside.backstage {r : Request} (h : Aside r) : Backstage r := by
  cases r with
  | router _ | cancelled => trivial
  | store _ | memory _ | publish _ _ | now | lock _ | unlock _ => exact h

/-! ## The pass -/

theorem pass_eq_managed (hview : ServiceView.of? service = .ok view)
    (hliving : view.deleting = false) (hqualifies : view.qualifies = true)
    (hfinalizer : view.hasFinalizer = true) :
    pass settings defaults service = managed defaults view := by
  unfold pass passFor
  simp [hview, hliving, hqualifies, hfinalizer]

theorem managed_cases {result : Except PassFailure Action}
    (h : Leads may (managed defaults view).run s result t) :
    (result = .ok .awaitChange ∧
      Leads may (converge defaults view).run s (.ok ()) t) ∨
      ∃ failure u, result = .error failure ∧
        Leads may (converge defaults view).run s (.error failure) u ∧
        Leads may (recordFailure view failure) u () t := by
  obtain ⟨r, u, hconverge, hrest⟩ := leads_bind.mp h
  cases r with
  | ok v =>
      obtain ⟨rfl, rfl⟩ := leads_done.mp hrest
      exact Or.inl ⟨rfl, hconverge⟩
  | error failure =>
      obtain ⟨v, w, hrecord, hdone⟩ := leads_bind.mp hrest
      obtain ⟨rfl, rfl⟩ := leads_done.mp hdone
      exact Or.inr ⟨failure, u, rfl, hconverge, hrecord⟩

/-! ## Converging -/

theorem claimDesired_ok {desired : List DesiredRule}
    (h : Leads may (claimDesired view defaults).run s (.ok desired) t) :
    Desired.rulesFor view defaults = .ok desired := by
  unfold claimDesired at h
  cases hrules : Desired.rulesFor view defaults with
  | error e =>
      simp only [hrules] at h
      exact absurd (leads_done.mp h).1 (by simp)
  | ok rules =>
      simp only [hrules] at h
      obtain ⟨reply, u, -, hrest⟩ := leads_bind.mp h
      cases reply with
      | error c => exact absurd (leads_done.mp hrest).1 (by simp)
      | ok v =>
          obtain ⟨heq, -⟩ := leads_done.mp hrest
          rw [Except.ok.inj heq]

theorem convergeLocked_ok {desired : List DesiredRule}
    (h : Leads may (convergeLocked view desired).run s (.ok ()) t) :
    ∃ plan s₁ s₂ s₃ s₄ s₅, Leads may (planAgainstRouter view.key desired).run s
      (.ok plan) s₁ ∧
      Leads may (Plan.execute plan).run s₁ (.ok ()) s₂ ∧ Way may Aside s₂ s₃ ∧
      Leads may (forget view.key) s₃ () s₄ ∧ Leads may (announce view plan) s₄ () s₅ ∧
      Leads may (Mark.annotate view.key (successMarks view)).run s₅ (.ok ()) t := by
  obtain ⟨plan, s₁, hplan, hrest⟩ := leads_tryBind_ok.mp h
  obtain ⟨u, s₂, hexecute, hrest⟩ := leads_tryBind_ok.mp hrest
  obtain ⟨u, s₃, hretain, hrest⟩ := leads_tryBind_ok.mp hrest
  obtain ⟨u, s₄, hforget, hrest⟩ := leads_tryBind_ok.mp hrest
  obtain ⟨u, s₅, hannounce, hannotate⟩ := leads_tryBind_ok.mp hrest
  exact ⟨plan, s₁, s₂, s₃, s₄, s₅, leads_adapt_ok.mp hplan, leads_adapt_ok.mp hexecute,
    .of_may (show Aside (.memory (.retain _ _)) from trivial)
      (leads_memory.mp (leads_lift_ok.mp hretain)),
    leads_lift_ok.mp hforget, leads_lift_ok.mp hannounce, leads_adapt_ok.mp hannotate⟩

theorem converge_succeeds (h : Leads may (converge defaults view).run s (.ok ()) t) :
    ∃ desired s₁ s₂, Desired.rulesFor view defaults = .ok desired ∧
      Way may Aside s s₁ ∧
      Leads may (convergeLocked view desired).run s₁ (.ok ()) s₂ ∧
      Way may Aside s₂ t := by
  obtain ⟨desired, u, hclaim, hlocked⟩ := leads_tryBind_ok.mp h
  have hclaim := leads_adapt_ok.mp hclaim
  obtain ⟨s₁, s₂, hlock, hbody, hunlock⟩ := leads_lockedTry hlocked
  refine ⟨desired, s₁, s₂, claimDesired_ok hclaim, ?_, hbody, ?_⟩
  · refine (hclaim.way (asks_claimDesired view defaults fun _ _ => trivial)).trans ?_
    exact .of_may (show Aside (.lock _) from trivial) hlock
  · exact .of_may (show Aside (.unlock _) from trivial) hunlock

/-- The plan cannot be made or carried out, or the Service cannot be written on
after it has been forgotten that it failed before. -/
theorem convergeLocked_halts {desired : List DesiredRule}
    (h : Leads may (convergeLocked view desired).run s (.error failure) t) :
    ((∀ e, failure ≠ .store e) ∧ Way may Preparing s t) ∨
      ∃ e plan s₁ s₂ s₃, failure = .store e ∧ Way may Preparing s s₁ ∧
        Leads may (forget view.key) s₁ () s₂ ∧
        Leads may (announce view plan) s₂ () s₃ ∧
        Leads may (Mark.annotate view.key (successMarks view)).run s₃
          (.error e) t := by
  have hplans :
      ∀ {result u}, Leads may (planAgainstRouter view.key desired).run s result u →
        Way may Preparing s u :=
    fun hplan => hplan.way (asks_planAgainstRouter view.key desired trivial)
  have hexecutes : ∀ {plan : List Operation} {result u v},
      Leads may (Plan.execute plan).run u result v → Way may Preparing u v :=
    fun hexecute => hexecute.way (Plan.asks_executeAfter _ _ _ (fun _ => trivial) trivial
      (fun _ _ => trivial) fun _ _ => trivial)
  rcases leads_tryBind.mp h with ⟨plan, s₁, hplan, hrest⟩ | ⟨e, hplan, he⟩
  · have hplanned := hplans (leads_adapt_ok.mp hplan)
    rcases leads_tryBind.mp hrest with ⟨u, s₂, hexecute, hrest⟩ | ⟨e, hexecute, he⟩
    · have hexecuted := hplanned.trans (hexecutes (leads_adapt_ok.mp hexecute))
      rcases leads_tryBind.mp hrest with ⟨u, s₃, hretain, hrest⟩ | ⟨e, hretain, -⟩
      · have hretained := hexecuted.trans (.of_may
          (show Preparing (.memory (.retain _ _)) from trivial)
          (leads_memory.mp (leads_lift_ok.mp hretain)))
        rcases leads_tryBind.mp hrest with ⟨u, s₄, hforget, hrest⟩ | ⟨e, hforget, -⟩
        · rcases leads_tryBind.mp hrest with
            ⟨u, s₅, hannounce, hannotate⟩ | ⟨e, hannounce, -⟩
          · obtain ⟨r, hannotate, heq⟩ := leads_adapt.mp hannotate
            cases r with
            | ok v =>
                have hfailed : Except.error failure = Except.ok () := heq
                exact absurd hfailed (by simp)
            | error e =>
                exact Or.inr ⟨e, plan, s₃, s₄, s₅, Except.error.inj heq, hretained,
                  leads_lift_ok.mp hforget, leads_lift_ok.mp hannounce, hannotate⟩
          · obtain ⟨v, -, heq⟩ := leads_lift.mp hannounce
            exact absurd heq (by simp)
        · obtain ⟨v, -, heq⟩ := leads_lift.mp hforget
          exact absurd heq (by simp)
      · obtain ⟨v, -, heq⟩ := leads_lift.mp hretain
        exact absurd heq (by simp)
    · obtain rfl := Except.error.inj he
      obtain ⟨cause, hhalt, rfl⟩ := leads_adapt_error.mp hexecute
      exact Or.inl ⟨by simp, hplanned.trans (hexecutes hhalt)⟩
  · obtain rfl := Except.error.inj he
    obtain ⟨cause, hunplanned, rfl⟩ := leads_adapt_error.mp hplan
    exact Or.inl ⟨by simp, hplans hunplanned⟩

/-- **Where a pass fails**: before anything shows, or when it writes on a Service
of which it has forgotten that it failed before. -/
theorem converge_halts
    (h : Leads may (converge defaults view).run s (.error failure) t) :
    ((∀ e, failure ≠ .store e) ∧ Way may Preparing s t) ∨
      ∃ e plan s₁ s₂ s₃ s₄, failure = .store e ∧ Way may Preparing s s₁ ∧
        Leads may (forget view.key) s₁ () s₂ ∧
        Leads may (announce view plan) s₂ () s₃ ∧
        Leads may (Mark.annotate view.key (successMarks view)).run s₃ (.error e) s₄ ∧
        Way may Preparing s₄ t := by
  have hclaims : ∀ {result u}, Leads may (claimDesired view defaults).run s result u →
      Way may Preparing s u :=
    fun hclaim => hclaim.way (asks_claimDesired view defaults fun _ _ => trivial)
  rcases leads_tryBind.mp h with ⟨desired, u, hclaim, hlocked⟩ | ⟨e, hclaim, he⟩
  · obtain ⟨v, w, hlock, hbody, hunlock⟩ := leads_lockedTry hlocked
    have hlocked : Way may Preparing s v := (hclaims (leads_adapt_ok.mp hclaim)).trans
      (.of_may (show Preparing (.lock _) from trivial) hlock)
    have hunlocked : Way may Preparing w t :=
      .of_may (show Preparing (.unlock _) from trivial) hunlock
    rcases convergeLocked_halts hbody with
      ⟨hcause, hway⟩ | ⟨e, plan, s₁, s₂, s₃, he, hway, hforget, hannounce, hannotate⟩
    · exact Or.inl ⟨hcause, (hlocked.trans hway).trans hunlocked⟩
    · exact Or.inr ⟨e, plan, s₁, s₂, s₃, w, he, hlocked.trans hway, hforget, hannounce,
        hannotate, hunlocked⟩
  · obtain rfl := Except.error.inj he
    obtain ⟨cause, hrefused, rfl⟩ := leads_adapt_error.mp hclaim
    exact Or.inl ⟨by simp, hclaims hrefused⟩

theorem converge_fails
    (h : Leads may (converge defaults view).run s (.error failure) t) :
    Way may Backstage s t ∨
      ∃ e plan s₁ s₂ s₃ s₄, failure = .store e ∧ Way may Backstage s s₁ ∧
        Leads may (forget view.key) s₁ () s₂ ∧
        Leads may (announce view plan) s₂ () s₃ ∧
        Leads may (Mark.annotate view.key (successMarks view)).run s₃ (.error e) s₄ ∧
        Way may Backstage s₄ t := by
  have hshown : ∀ {u v}, Way may Preparing u v → Way may Backstage u v :=
    fun hway => hway.mono fun _ => Preparing.backstage
  rcases converge_halts h with
    ⟨-, hway⟩ | ⟨e, plan, s₁, s₂, s₃, s₄, he, hway, hforget, hannounce,
      hannotate, hunlock⟩
  · exact Or.inl (hshown hway)
  · exact Or.inr ⟨e, plan, s₁, s₂, s₃, s₄, he, hshown hway, hforget, hannounce, hannotate,
      hshown hunlock⟩

/-- What a successful pass writes, by name: it takes a failure off, and notes
a change. -/
theorem lookup_successMarks (view : ServiceView) (name : String) :
    (successMarks view).lookup name =
      if name = Mark.errorContext then
        if (view.annotation? Mark.errorContext).isSome then some none else none
      else if name = Mark.changeContext then
        if (previousChange view).isNone ||
            (ChangeRecord.compute (previousChange view) view).hasChanges then
          some (some (ChangeRecord.compute (previousChange view) view).encode)
        else none
      else none := by
  have herror : (Mark.errorContext == Mark.changeContext) = false := by decide
  have hchange : (Mark.changeContext == Mark.errorContext) = false := by decide
  unfold successMarks
  dsimp only
  generalize (view.annotation? Mark.errorContext).isSome = failed
  generalize ((previousChange view).isNone ||
    (ChangeRecord.compute (previousChange view) view).hasChanges) = changed
  by_cases hfailure : name = Mark.errorContext
  · subst hfailure
    rw [if_pos rfl]
    cases failed <;> cases changed <;> simp [List.lookup_cons, herror]
  · have hother : (name == Mark.errorContext) = false := beq_eq_false_iff_ne.mpr hfailure
    rw [if_neg hfailure]
    by_cases hrecord : name = Mark.changeContext
    · subst hrecord
      rw [if_pos rfl]
      cases failed <;> cases changed <;> simp [List.lookup_cons, hchange]
    · have hneither : (name == Mark.changeContext) = false :=
        beq_eq_false_iff_ne.mpr hrecord
      rw [if_neg hrecord]
      cases failed <;> cases changed <;> simp [List.lookup_cons, hother, hneither]

/-! ## Failures -/

/-- **What is made of a failure**: it is observed, and then suppressed, or told,
or told and noted. -/
theorem recordFailure_cases (h : Leads may (recordFailure view failure) s () t) :
    ∃ decision s₁,
      may s (.memory (.observe view.key.text failure.message)) decision s₁ ∧
      ((failure.rollbackFailed = false ∧ decision.surface = false ∧ t = s₁) ∨
        (failure.rollbackFailed = true ∧
          may s₁ (.publish view.reference (failureNote failure)) () t) ∨
        (failure.rollbackFailed = false ∧ decision.surface = true ∧
          ∃ s₂ time s₃ reply,
          may s₁ (.publish view.reference (failureNote failure)) () s₂ ∧
          may s₂ .now time s₃ ∧
          may s₃ (.store (.patch view.key (.annotations [(Mark.errorContext,
            some (failureRecord view failure decision.sinceSurfaced
              time).encode)]))) reply t)) := by
  obtain ⟨decision, s₁, hobserve, hrest⟩ := leads_bind.mp h
  refine ⟨decision, s₁, leads_memory.mp hobserve, ?_⟩
  cases hrollback : failure.rollbackFailed with
  | true =>
      simp only [hrollback] at hrest
      obtain ⟨u, s₂, hpublish, hdone⟩ := leads_bind.mp hrest
      obtain ⟨-, rfl⟩ := leads_done.mp hdone
      exact Or.inr (Or.inl ⟨rfl, leads_request.mp hpublish⟩)
  | false =>
      cases hsurface : decision.surface with
      | false =>
          simp only [hrollback, hsurface] at hrest
          obtain ⟨-, rfl⟩ := leads_done.mp hrest
          exact Or.inl ⟨rfl, rfl, rfl⟩
      | true =>
          simp only [hrollback, hsurface] at hrest
          obtain ⟨u, s₂, hpublish, hrest⟩ := leads_bind.mp hrest
          obtain ⟨time, s₃, hnow, hrest⟩ := leads_bind.mp hrest
          obtain ⟨reply, s₄, hannotate, hdone⟩ := leads_bind.mp hrest
          obtain ⟨-, rfl⟩ := leads_done.mp hdone
          exact Or.inr (Or.inr ⟨rfl, rfl, s₂, time, s₃, reply, leads_request.mp hpublish,
            leads_request.mp hnow, leads_request.mp hannotate⟩)

end PortForwarding.Reconcile
