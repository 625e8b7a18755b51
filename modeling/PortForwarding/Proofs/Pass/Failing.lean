import PortForwarding.Proofs.Limiter
import PortForwarding.Proofs.Pass.Aftermath
import PortForwarding.Proofs.Script.Amid

/-!
# A pass that fails while the API does not

The limiter stands beside the API here: it is asked about every failure, and
others may have worked on it before it answers. Where no call to the API fails, a
failed pass comes to little: its failure is observed, and written down if the
limiter lets it through and no rollback failed (`Outcome`).
-/

namespace PortForwarding.Tally

open Reconcile Script Stored

/-! ## The limiter in the course of a pass -/

/-- What may have become of the limiter meanwhile that is not the doing of a
subject: others have failed or succeeded, a sweep has gone over it, or the
operator was started anew. -/
inductive Meanwhile (subject : String) (l : Limiter) : Limiter → Prop
  | idle : Meanwhile subject l l
  | observed {m : Limiter} (earlier : Meanwhile subject l m)
      (other error : String) (time : Nat)
      (hother : other ≠ subject) : Meanwhile subject l (m.observe other error time).2
  | reset {m : Limiter} (earlier : Meanwhile subject l m) (other : String)
      (hother : other ≠ subject) : Meanwhile subject l (m.reset other)
  | swept {m : Limiter} (earlier : Meanwhile subject l m) (time ttl : Nat) :
      Meanwhile subject l (m.purge time ttl)
  | restarted {m : Limiter} (earlier : Meanwhile subject l m) : Meanwhile subject l .empty

/-- The entry of a subject is changed by nobody else, but it can be lost. -/
theorem Meanwhile.entry {subject : String} {l m : Limiter}
    (h : Meanwhile subject l m) :
    m.entries.get? subject = l.entries.get? subject ∨
      m.entries.get? subject = none := by
  induction h with
  | idle => exact Or.inl rfl
  | observed earlier other error time hother ih =>
      rw [Limiter.get?_observe, if_neg hother]
      exact ih
  | @reset m earlier other hother ih =>
      have hsame : (m.reset other).entries.get? subject = m.entries.get? subject := by
        show (m.entries.erase other).get? subject = _
        rw [Table.get?_erase, if_neg hother]
      rw [hsame]
      exact ih
  | @swept m earlier time ttl ih =>
      have hswept : (m.purge time ttl).entries.get? subject =
          (m.entries.get? subject).filter fun e => decide (time - e.lastSeen < ttl) := by
        show (m.entries.filter _).get? subject = _
        rw [Table.get?_filter]
      rw [hswept]
      cases hentry : m.entries.get? subject with
      | none => exact Or.inr rfl
      | some e =>
          rw [hentry] at ih
          rw [Option.filter_some]
          split
          · exact ih
          · exact Or.inr rfl
  | restarted => exact Or.inr rfl

/-- How the limiter answers, at some time. Most requests are none to it. -/
def Answers : Possible Limiter := fun l r reply l' =>
  match r, reply with
  | .memory (.observe subject error), decision =>
    ∃ now, (decision, l') = l.observe subject error now
  | .memory (.remaining subject), left =>
      (∃ now, left = l.remaining? subject now) ∧ l' = l
  | .memory (.forget subject), _ => l' = l.reset subject
  | _, _ => l' = l

/-- The API, and the limiter beside it, on which others work before each of
its answers. -/
def Around (subject : String) : Possible (Stored × Limiter) := fun s r reply t =>
  Stored.May s.1 r reply t.1 ∧ Amid (Meanwhile subject) Answers s.2 r reply t.2

def Keeps (subject : String) (l l' : Limiter) : Prop :=
  l'.entries.get? subject = l.entries.get? subject ∨ l'.entries.get? subject = none

theorem Keeps.trans {subject : String} {l m l' : Limiter} (h : Keeps subject l m)
    (h' : Keeps subject m l') : Keeps subject l l' := by
  rcases h' with hsame | hnone
  · rw [Keeps, hsame]
    exact h
  · exact Or.inr hnone

def Unobserving : Request → Prop
  | .memory (.observe _ _) => False
  | _ => True

theorem Backstage.unobserving {r : Request} (h : Backstage r) : Unobserving r := by
  cases r with
  | memory call =>
      cases call with
      | observe _ _ => exact h
      | _ => trivial
  | router _ | cancelled | lock _ | unlock _ | store _ | publish _ _ | now => trivial

theorem Unobserving.keeps {subject : String} {l l' : Limiter} {r : Request}
    {reply : r.Reply} (hr : Unobserving r)
    (h : Amid (Meanwhile subject) Answers l r reply l') : Keeps subject l l' := by
  obtain ⟨m, hm, hanswer⟩ := h
  have hsame : l' = m → Keeps subject l l' := by
    rintro rfl
    exact hm.entry
  cases r with
  | memory call =>
      cases call with
      | observe _ _ => exact hr.elim
      | remaining _ => exact hsame hanswer.2
      | forget other =>
          obtain rfl : l' = m.reset other := hanswer
          refine Keeps.trans hm.entry ?_
          show (m.entries.erase other).get? subject = _ ∨
            (m.entries.erase other).get? subject = none
          rw [Table.get?_erase]
          split
          · exact Or.inr rfl
          · exact Or.inl rfl
      | claim _ _ | retain _ _ | release _ _ | releaseAll _
      | countRetry _ | resetRetries _ =>
          exact hsame hanswer
  | router _ | cancelled | lock _ | unlock _ | store _ | publish _ _ | now =>
      exact hsame hanswer

theorem Unobserving.keeps_along {σ : Type} {may : Possible σ} {subject : String}
    {s t : σ} (part : σ → Limiter) (hmay : ∀ {s r reply t}, may s r reply t →
      Amid (Meanwhile subject) Answers (part s) r reply (part t))
    (h : Way may Unobserving s t) : Keeps subject (part s) (part t) := by
  apply h.preserves (P := fun u => Keeps subject (part s) (part u)) _ (Or.inl rfl)
  intro u r reply v hr hu hstep
  exact hu.trans (hr.keeps (hmay hstep))

theorem entry_of_observed {subject error : String} {l l' : Limiter}
    {decision : Decision}
    (h : Amid (Meanwhile subject) Answers l (.memory (.observe subject error))
      decision l') :
    ∃ entry now, (entry = l.entries.get? subject ∨ entry = none) ∧
      decision = (Limiter.step entry error now).2 ∧
      l'.entries.get? subject = some (Limiter.step entry error now).1 := by
  obtain ⟨m, hm, now, hanswer⟩ := h
  rw [Limiter.observe_eq] at hanswer
  obtain ⟨hdecision, hafter⟩ := Prod.mk.inj hanswer
  refine ⟨m.entries.get? subject, now, hm.entry, hdecision, ?_⟩
  rw [hafter, Table.get?_set, if_pos rfl]

theorem Keeps.none {subject : String} {l l' : Limiter} (h : Keeps subject l l')
    (hnone : l.entries.get? subject = none) : l'.entries.get? subject = none := by
  rcases h with hsame | hlost
  · exact hsame.trans hnone
  · exact hlost

variable {subject : String} {key : ServiceKey} {view : ServiceView}
  {failure : PassFailure} {defaults : RuleDefaults}
  {x y : (Stored × Limiter) × List Exchange}

/-! ## Stages of a pass -/

theorem failed_of_may {u v : Stored} {r : Request} {reply : r.Reply}
    (h : May u r reply v) (hu : u.failed = true) : v.failed = true := by
  by_contra hv
  obtain ⟨hnot, -⟩ := May.intact h (Bool.eq_false_iff.mpr hv)
  rw [hu] at hnot
  exact absurd hnot (by simp)

theorem keeps_of_way (h : Way (Recorded (Around subject)) Unobserving x y) :
    Keeps subject x.1.2 y.1.2 :=
  Unobserving.keeps_along (fun z => z.1.2) (fun hmay => hmay.1.2) h

/-- Nothing is written, and nobody notices. -/
structure Stays (subject : String) (x y : (Stored × Limiter) × List Exchange) :
    Prop where
  object : y.1.1.object = x.1.1.object
  limiter : Keeps subject x.1.2 y.1.2
  notices : notices y.2 = notices x.2

theorem stays_of_way (h : Way (Recorded (Around subject)) Backstage x y) :
    Stays subject x y := by
  refine ⟨?_, keeps_of_way (h.mono fun _ => Backstage.unobserving),
    h.unseen fun r reply hr => misses_unnoticed r reply hr.unnoticed⟩
  apply h.preserves (P := fun z => z.1.1.object = x.1.1.object) _ rfl
  intro u r reply v hr hu hmay
  rw [hr.unnoticed.apart.may hmay.1.1]
  exact hu

/-- Where no call to the API fails, a pass fails before anything is noticed. -/
theorem converge_fails_intact
    (h : Leads (Recorded (Around subject)) (converge defaults view).run x
      (.error failure) y) (hintact : y.1.1.failed = false) :
    Stays subject x y := by
  rcases converge_fails h with
    hway | ⟨e, plan, s₁, s₂, s₃, s₄, rfl, -, -, -, hannotate, hunlock⟩
  · exact stays_of_way hway
  · have hrefused : s₄.1.1.failed = true := by
      unfold Mark.annotate at hannotate
      split at hannotate
      · exact absurd (leads_done.mp hannotate).1 (by simp)
      · have hpatch : Recorded (Around subject) s₃
            (.store (.patch view.key (.annotations (successMarks view)))) (.error e) s₄ :=
          leads_request.mp hannotate
        have hafter : s₄.1.1 = { s₃.1.1 with failed := true } := hpatch.1.1
        rw [hafter]
    have hstill : y.1.1.failed = true := by
      refine hunlock.preserves (P := fun z => z.1.1.failed = true) ?_ hrefused
      intro u r reply v _ hu hmay
      exact failed_of_may hmay.1.1 hu
    exact absurd (hstill.symm.trans hintact) (by simp)

theorem entry_of_forget (h : Leads (Recorded (Around key.text)) (forget key) x () y) :
    y.1.2.entries.get? key.text = none := by
  obtain ⟨u, z, hforget, hreset⟩ := leads_bind.mp h
  have hmay : Recorded (Around key.text) x (.memory (.forget key.text)) () z :=
    leads_memory.mp hforget
  have hlast : Recorded (Around key.text) z (.memory (.resetRetries key)) () y :=
    leads_memory.mp hreset
  obtain ⟨m, -, hafter⟩ := hmay.1.2
  have hforgotten : z.1.2 = m.reset key.text := hafter
  refine (Unobserving.keeps (r := .memory (.resetRetries key)) trivial hlast.1.2).none ?_
  rw [hforgotten]
  show (m.entries.erase key.text).get? key.text = none
  rw [Table.get?_erase, if_pos rfl]

def isNoted (failure : PassFailure) (decision : Decision) : Bool :=
  decision.surface && !failure.rollbackFailed

/-- What is done about a failure once it has been observed: it is noted, or
nothing is written. -/
structure Reported (view : ServiceView) (failure : PassFailure) (decision : Decision)
    (x y : (Stored × Limiter) × List Exchange) : Prop where
  key : y.1.1.object.key = x.1.1.object.key
  limiter : Keeps view.key.text x.1.2 y.1.2
  decided : (notices y.2).filterMap Notice.decided? =
    (notices x.2).filterMap Notice.decided?
  unnoted : isNoted failure decision = false →
    (notices y.2).filterMap Notice.written? = (notices x.2).filterMap Notice.written? ∧
      y.1.1.object = x.1.1.object
  noted : isNoted failure decision = true → ∃ time, time.Reading ∧ ∀ note,
    note = (failureRecord view failure decision.sinceSurfaced time).encode →
      (notices y.2).filterMap Notice.written? =
        (notices x.2).filterMap Notice.written? ++ [[(Mark.errorContext, some note)]] ∧
      y.1.1.object.annotation? Mark.errorContext = some note

theorem told_of_publish {object : ObjectReference} {told : Notification}
    (h : Recorded (Around subject) x (.publish object told) () y) :
    y.1.1 = x.1.1 ∧ Keeps subject x.1.2 y.1.2 ∧
    notices y.2 = notices x.2 ++ [.told object told] :=
  ⟨Apart.may (r := .publish object told) trivial h.1.1,
    Unobserving.keeps (r := .publish object told) trivial h.1.2, picked_of_may h⟩

theorem reported_of_told {decision : Decision}
    (hunnoted : isNoted failure decision = false)
    (hpublish : Recorded (Around view.key.text) x
      (.publish view.reference (failureNote failure)) () y) :
    Reported view failure decision x y := by
  obtain ⟨hobject, hlimiter, hseen⟩ := told_of_publish hpublish
  refine ⟨by rw [hobject], hlimiter, ?_, fun _ => ⟨?_, by rw [hobject]⟩,
    fun hnoted => absurd (hunnoted.symm.trans hnoted) (by simp)⟩
  · rw [hseen, List.filterMap_append]
    exact List.append_nil _
  · rw [hseen, List.filterMap_append]
    exact List.append_nil _

theorem reported_of_written {decision : Decision} {time : Timestamp}
    {reply : Except StoreError Unit} {u v : (Stored × Limiter) × List Exchange}
    (hnoted : isNoted failure decision = true)
    (hkey : view.key = x.1.1.object.key)
    (hpublish : Recorded (Around view.key.text) x
      (.publish view.reference (failureNote failure)) () u)
    (hnow : Recorded (Around view.key.text) u .now time v)
    (hpatch : Recorded (Around view.key.text) v
      (.store (.patch view.key (.annotations [(Mark.errorContext,
        some (failureRecord view failure decision.sinceSurfaced time).encode)])))
      reply y)
    (hintact : y.1.1.failed = false) :
    Reported view failure decision x y := by
  obtain ⟨hpublished, htold, hseen⟩ := told_of_publish hpublish
  have hread : v.1.1 = { u.1.1 with clock := time.instant } := hnow.1.1.2
  have hobject : v.1.1.object = x.1.1.object := by rw [hread, hpublished]
  have hlimiter : Keeps view.key.text x.1.2 y.1.2 :=
    (htold.trans (Unobserving.keeps (r := .now) trivial hnow.1.2)).trans
      (Unobserving.keeps (r := .store _) trivial hpatch.1.2)
  have hsilent : notices v.2 = notices u.2 :=
    (picked_of_may hnow).trans (List.append_nil _)
  have hcalled : notices y.2 = notices v.2 ++ [.called (.patch view.key (.annotations
      [(Mark.errorContext, some
        (failureRecord view failure decision.sinceSurfaced time).encode)])) reply] :=
    picked_of_may hpatch
  rw [hsilent, hseen, List.append_assoc] at hcalled
  rw [← hobject] at hkey
  rcases may_patch hkey hpatch.1.1 with ⟨rfl, object, hpatched, hy⟩ | ⟨e, -, hy⟩
  · refine ⟨?_, hlimiter, ?_, fun hunnoted =>
      absurd (hnoted.symm.trans hunnoted) (by simp),
      fun _ => ⟨time, hnow.1.1.1, ?_⟩⟩
    · rw [hy, ← hobject]
      exact hpatched.key
    · rw [hcalled, List.filterMap_append]
      exact List.append_nil _
    · rintro note rfl
      refine ⟨?_, ?_⟩
      · rw [hcalled, List.filterMap_append]
        rfl
      · rw [hy, hpatched.1]
        simp
  · rw [hy] at hintact
    exact absurd hintact (by simp)

theorem recordFailure_reports (hkey : view.key = x.1.1.object.key)
    (h : Leads (Recorded (Around view.key.text)) (recordFailure view failure) x () y)
    (hintact : y.1.1.failed = false) :
    ∃ decision u, Recorded (Around view.key.text) x
        (.memory (.observe view.key.text failure.message)) decision u ∧
      Reported view failure decision u y := by
  obtain ⟨decision, u, hobserve, hrest⟩ := recordFailure_cases h
  refine ⟨decision, u, hobserve, ?_⟩
  have hsame : u.1.1 = x.1.1 :=
    Apart.may (r := .memory (.observe view.key.text failure.message)) trivial hobserve.1.1
  rcases hrest with ⟨hclean, hheld, rfl⟩ | ⟨hbroken, hpublish⟩ |
    ⟨hclean, hsurfaced, v, time, w, reply, hpublish, hnow, hpatch⟩
  · have hunnoted : isNoted failure decision = false := by simp [isNoted, hheld]
    exact ⟨rfl, Or.inl rfl, rfl, fun _ => ⟨rfl, rfl⟩,
      fun hnoted => absurd (hunnoted.symm.trans hnoted) (by simp)⟩
  · exact reported_of_told (by simp [isNoted, hbroken]) hpublish
  · rw [← hsame] at hkey
    exact reported_of_written (by simp [isNoted, hclean, hsurfaced]) hkey
      hpublish hnow hpatch hintact

/-! ## The pass -/

/-- A pass that fails for a Service that asks for ports, though no call to the API
does, with all that was asked and answered in it. -/
structure FailedPass (settings : CleanupSettings) (defaults : RuleDefaults) where
  view : ServiceView
  first : Stored × Limiter
  last : Stored × Limiter
  failure : PassFailure
  decision : Decision
  log : List Exchange
  seen : ServiceView.of? first.1.object = .ok view
  living : view.deleting = false
  qualifies : view.qualifies = true
  held : view.hasFinalizer = true
  intact : last.1.failed = false
  leads : Leads (Recorded (Around view.key.text)) (pass settings defaults
    first.1.object).run (first, []) (.error failure) (last, log)
  /-- What the limiter has decided about the failure. -/
  decided : (notices log).filterMap Notice.decided? =
    [(view.key.text, failure.message, decision)]

variable {settings : CleanupSettings} {s t : Stored × Limiter}

namespace FailedPass

def surfaced (p : FailedPass settings defaults) : Bool :=
  p.decision.surface

def anew (p : FailedPass settings defaults) : Bool :=
  p.decision.count == 1

def broken (p : FailedPass settings defaults) : Bool :=
  p.failure.rollbackFailed

def noted (p : FailedPass settings defaults) : Bool :=
  isNoted p.failure p.decision

theorem noted_eq (p : FailedPass settings defaults) :
    p.noted = (p.surfaced && !p.broken) :=
  rfl

def Notes (p : FailedPass settings defaults) (note : String) : Prop :=
  ∃ changes ∈ (notices p.log).filterMap Notice.written?,
    changes.lookup Mark.errorContext = some (some note)

def record (p : FailedPass settings defaults) (time : Timestamp) : FailureRecord :=
  failureRecord p.view p.failure p.decision.sinceSurfaced time

end FailedPass

/-- **What comes of a failed pass**: its failure is observed, and the note of it
is written if it is to be noted. -/
structure Outcome (p : FailedPass settings defaults) : Prop where
  key : p.last.1.object.key = p.first.1.object.key
  observed : ∃ entry now,
    (entry = p.first.2.entries.get? p.view.key.text ∨ entry = none) ∧
      p.decision = (Limiter.step entry p.failure.message now).2 ∧
      ∀ e, p.last.2.entries.get? p.view.key.text = some e →
        e = (Limiter.step entry p.failure.message now).1
  unnoted : p.noted = false → (∀ note, ¬p.Notes note) ∧
    p.last.1.object.annotation? Mark.errorContext =
      p.first.1.object.annotation? Mark.errorContext
  noted : p.noted = true → ∃ time, time.Reading ∧
    (∀ note, p.Notes note → note = (p.record time).encode) ∧
      p.last.1.object.annotation? Mark.errorContext = some (p.record time).encode

/-- The stages of a failed pass: it fails unnoticed, the failure is observed, and
then reported. -/
theorem FailedPass.stages (p : FailedPass settings defaults) :
    ∃ x y, Stays p.view.key.text (p.first, []) x ∧
      Recorded (Around p.view.key.text) x
        (.memory (.observe p.view.key.text p.failure.message)) p.decision y ∧
      y.1.1 = x.1.1 ∧ notices y.2 =
        [.decided p.view.key.text p.failure.message p.decision] ∧
      Reported p.view p.failure p.decision y (p.last, p.log) := by
  have h := p.leads
  rw [pass_eq_managed p.seen p.living p.qualifies p.held] at h
  rcases managed_cases h with ⟨heq, -⟩ | ⟨failure, x, heq, hconverge, hrecord⟩
  · exact absurd heq (by simp)
  obtain rfl : p.failure = failure := Except.error.inj heq
  have hintact : x.1.1.failed = false := by
    by_contra hfailed
    have hlast : p.last.1.failed = true := by
      refine hrecord.preserves (P := fun z => z.1.1.failed = true) ?_
        (by simpa using hfailed)
      intro u r reply v hu hmay
      exact failed_of_may hmay.1.1 hu
    exact absurd (hlast.symm.trans p.intact) (by simp)
  have hstays := converge_fails_intact hconverge hintact
  have hkey : p.view.key = x.1.1.object.key := by
    rw [hstays.object]
    exact (ServiceView.of?_ok p.seen).1
  obtain ⟨decision, y, hobserve, hreported⟩ := recordFailure_reports hkey hrecord p.intact
  have hseen : notices y.2 = [.decided p.view.key.text p.failure.message decision] := by
    have hmore : notices y.2 =
        notices x.2 ++ [.decided p.view.key.text p.failure.message decision] :=
      picked_of_may hobserve
    rw [hmore, hstays.notices]
    rfl
  obtain rfl : decision = p.decision := by
    have hdecided := hreported.decided
    rw [hseen, p.decided] at hdecided
    have hsame : [(p.view.key.text, p.failure.message, decision)] =
        [(p.view.key.text, p.failure.message, p.decision)] := hdecided.symm
    simpa using hsame
  refine ⟨x, y, hstays, hobserve, ?_, hseen, hreported⟩
  exact Apart.may (r := .memory (.observe p.view.key.text p.failure.message))
    trivial hobserve.1.1

theorem FailedPass.outcome (p : FailedPass settings defaults) : Outcome p := by
  obtain ⟨x, y, hstays, hobserve, hsame, hseen, hreported⟩ := p.stages
  have hobject : y.1.1.object = p.first.1.object := by
    rw [hsame]
    exact hstays.object
  constructor
  case key => exact hreported.key.trans (congrArg ServiceObject.key hobject)
  case observed =>
    obtain ⟨entry, now, hentry, hdecision, hafter⟩ := entry_of_observed hobserve.1.2
    refine ⟨entry, now, ?_, hdecision, fun e he => ?_⟩
    · rcases hentry with rfl | rfl
      · exact hstays.limiter
      · exact Or.inr rfl
    · rcases hreported.limiter with hkept | hnone
      · rw [hkept, hafter] at he
        exact (Option.some.inj he).symm
      · rw [hnone] at he
        exact absurd he (by simp)
  case unnoted =>
    intro hunnoted
    obtain ⟨hwritten, hlast⟩ := hreported.unnoted hunnoted
    rw [hseen] at hwritten
    refine ⟨?_, ?_⟩
    · rintro note ⟨changes, hchanges, -⟩
      rw [hwritten] at hchanges
      exact absurd hchanges List.not_mem_nil
    · have hunchanged : p.last.1.object = p.first.1.object := hlast.trans hobject
      rw [hunchanged]
  case noted =>
    intro hnoted
    obtain ⟨time, htime, hnote⟩ := hreported.noted hnoted
    obtain ⟨hwritten, hlast⟩ := hnote _ rfl
    rw [hseen] at hwritten
    refine ⟨time, htime, ?_, hlast⟩
    rintro note ⟨changes, hchanges, hlookup⟩
    rw [hwritten] at hchanges
    obtain rfl := List.mem_singleton.mp hchanges
    show note = (failureRecord p.view p.failure p.decision.sinceSurfaced time).encode
    simpa using hlookup.symm

/-- Of every pass that fails while no call to the API does there is something
to tell. -/
theorem exists_failedPass {log : List Exchange} {view : ServiceView}
    (hview : ServiceView.of? s.1.object = .ok view)
    (hliving : view.deleting = false) (hqualifies : view.qualifies = true)
    (hfinalizer : view.hasFinalizer = true) (hintact : t.1.failed = false)
    (h : Leads (Recorded (Around view.key.text))
      (pass settings defaults s.1.object).run (s, []) (.error failure) (t, log)) :
    ∃ p : FailedPass settings defaults, p.first = s ∧ p.last = t ∧
      p.failure = failure ∧
      p.log = log := by
  have hmanaged := h
  rw [pass_eq_managed hview hliving hqualifies hfinalizer] at hmanaged
  have hstored : Leads (Recorded May) (managed defaults view).run (s.1, [])
      (.error failure) (t.1, log) :=
    hmanaged.project (fun z => (z.1.1, z.2)) fun hmay => ⟨hmay.1.1, hmay.2⟩
  rcases managed_cases hstored with ⟨heq, -⟩ | ⟨failure, x, heq, hconverge, hrecord⟩
  · exact absurd heq (by simp)
  · obtain rfl := Except.error.inj heq
    obtain ⟨decision, hdecided, -⟩ :=
      (uncommitted_of_leads (ServiceView.of?_ok hview).1 hconverge hrecord).suppressed
    exact ⟨⟨view, s, t, _, decision, log, hview, hliving, hqualifies,
      hfinalizer, hintact, h, hdecided⟩, rfl, rfl, rfl, rfl⟩

end PortForwarding.Tally
