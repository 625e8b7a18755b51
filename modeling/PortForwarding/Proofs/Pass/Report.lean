import PortForwarding.Proofs.Pass.Failing

/-!
# Which failures are reported

A pass that fails tells of it on the Service and writes it down there, unless the
limiter holds the failure back or a rollback failed. This holds of a Service that
asks for ports and has somewhere to send them (`recordFailure_visible`). One that
asks for ports and has nowhere to send them is let go, and one of which the
destination cannot be made out is not looked at; where a pass fails for one of
these nobody is told (`asks_pass_mute`).

Nothing is known here of the router, of the reservations and of the API: they
answer in any way at all. Only the limiter is itself.
-/

namespace PortForwarding.Report

open Reconcile Script Tally

/-! ## What is said of a failure -/

def Tells (service : ServiceObject) (failure : PassFailure) (x : Exchange) : Prop :=
  ∃ note : Notification, x = ⟨.publish service.reference note, ()⟩ ∧
    note.severity = .warning ∧ note.message = failure.message

/-- The exchange is an attempt to write the failure down on the Service. -/
def Notes (service : ServiceObject) (failure : PassFailure) (x : Exchange) : Prop :=
  ∃ (record : FailureRecord) (reply : Except StoreError Unit),
    x =
      ⟨.store (.patch service.key
      (.annotations [(Mark.errorContext, some record.encode)])),
      reply⟩ ∧ record.code = failure.errorClass ∧ record.message = failure.message

/-- **The failure is not overlooked**: it is told, and noted unless a
rollback failed. -/
structure Visible (service : ServiceObject) (failure : PassFailure)
    (log : List Exchange) :
    Prop where
  told : ∃ x ∈ log, Tells service failure x
  noted : failure.rollbackFailed = false → ∃ x ∈ log, Notes service failure x

/-- The request neither tells anything nor writes a failure down. -/
def Mute : Request → Prop
  | .publish _ _ => False
  | .store (.patch _ (.annotations changes)) =>
    ∀ change ∈ changes, change.1 = Mark.errorContext → change.2 = none
  | _ => True

variable {settings : CleanupSettings} {defaults : RuleDefaults}
  {service : ServiceObject} {view : ServiceView} {failure : PassFailure}
  {log : List Exchange}

theorem not_visible_of_mute (h : ∀ x ∈ log, Mute x.1) :
    ¬Visible service failure log := by
  rintro ⟨⟨x, hx, note, rfl, -⟩, -⟩
  exact h _ hx

/-! ## The limiter beside all else -/

/-- The limiter, on which others work before each of its answers. All else answers
as it likes. -/
abbrev Beside (subject : String) : Possible (Limiter × List Exchange) :=
  Recorded (Amid (Meanwhile subject) Answers)

variable {subject : String} {x y : Limiter × List Exchange}

theorem entry_of_converge (h : Leads (Beside subject) (converge defaults view).run x
    (.error failure) y) : Keeps subject x.1 y.1 := by
  suffices hway : Way (Beside subject) Unobserving x y from
    Unobserving.keeps_along (fun z => z.1) (fun hmay => hmay.1) hway
  have hquiet : ∀ {u v}, Way (Beside subject) Backstage u v →
      Way (Beside subject) Unobserving u v :=
    fun hway => hway.mono fun _ => Backstage.unobserving
  rcases converge_fails h with
    hway | ⟨e, plan, s₁, s₂, s₃, s₄, -, hbefore, hforget, hannounce, hannotate, hafter⟩
  · exact hquiet hway
  -- all is done and forgotten, and only then the Service cannot be written on
  · have hforgot := hforget.way (asks_forget (Q := Unobserving) _ trivial trivial)
    have hannounced :=
      hannounce.way (asks_announce (Q := Unobserving) plan fun _ => trivial)
    have hannotated := hannotate.way (Mark.asks_annotate (Q := Unobserving) _ trivial)
    exact (hquiet hbefore).trans (hforgot.trans (hannounced.trans (hannotated.trans
      (hquiet hafter))))

/-! ## Failures of a managed pass -/

theorem tells_failureNote (hreference : view.reference = service.reference) :
    Tells service failure ⟨.publish view.reference (failureNote failure), ()⟩ :=
  ⟨failureNote failure, by rw [hreference], rfl, rfl⟩

theorem notes_failureRecord (hkey : view.key = service.key) (failures : Nat)
    (time : Timestamp) (reply : Except StoreError Unit) :
    Notes service failure ⟨.store (.patch view.key (.annotations
      [(Mark.errorContext,
        some (failureRecord view failure failures time).encode)])), reply⟩ :=
  ⟨failureRecord view failure failures time, reply, by rw [hkey], rfl, rfl⟩

/-- **A failure that the limiter has not seen last is not overlooked.** -/
theorem recordFailure_visible (hkey : view.key = service.key)
    (hreference : view.reference = service.reference)
    (hnew : ∀ e, x.1.entries.get? view.key.text = some e → e.error ≠ failure.message)
    (h : Leads (Beside view.key.text) (recordFailure view failure) x () y) :
    Visible service failure y.2 := by
  obtain ⟨decision, u, hobserve, hrest⟩ := recordFailure_cases h
  have hsurfaced : decision.surface = true := by
    obtain ⟨entry, now, hentry, hdecision, -⟩ := entry_of_observed hobserve.1
    rw [hdecision]
    apply Limiter.surface_step_of_new
    rcases hentry with rfl | rfl
    · exact hnew
    · exact nofun
  rcases hrest with ⟨-, hheld, -⟩ | ⟨hbroken, hpublish⟩ |
    ⟨hclean, -, v, time, w, reply, hpublish, hnow, hpatch⟩
  · exact absurd (hsurfaced.symm.trans hheld) (by simp)
  · refine ⟨⟨_, hpublish.mem, tells_failureNote hreference⟩, fun hclean => ?_⟩
    exact absurd (hbroken.symm.trans hclean) (by simp)
  · have htold := hpatch.subset (hnow.subset hpublish.mem)
    exact ⟨⟨_, htold, tells_failureNote hreference⟩,
      fun _ => ⟨_, hpatch.mem, notes_failureRecord hkey _ _ _⟩⟩

theorem managed_visible (hkey : view.key = service.key)
    (hreference : view.reference = service.reference)
    (hnew : ∀ e, x.1.entries.get? view.key.text = some e →
      e.error ≠ failure.message)
    (h : Leads (Beside view.key.text) (managed defaults view).run x
      (.error failure) y) :
    Visible service failure y.2 := by
  rcases managed_cases h with ⟨heq, -⟩ | ⟨failure, u, heq, hconverge, hrecord⟩
  · exact absurd heq (by simp)
  · obtain rfl := Except.error.inj heq
    refine recordFailure_visible hkey hreference (fun e he => ?_) hrecord
    rcases entry_of_converge hconverge with hsame | hlost
    · rw [hsame] at he
      exact hnew e he
    · rw [hlost] at he
      exact absurd he (by simp)

/-! ## Failures of other passes -/

theorem mute_clearedState (view : ServiceView) :
    Mute (.store (.patch view.key (.annotations (clearedState view)))) := by
  intro change hchange _
  obtain ⟨name, -, rfl⟩ := List.mem_map.mp hchange
  rfl

theorem asks_passFor_mute (hliving : view.deleting = false)
    (hneedless : view.qualifies = false) :
    Asks Mute (passFor settings defaults view).run := by
  have hlets : Asks Mute (letGo view).run :=
    asks_letGo view (mute_clearedState view) trivial (fun _ => trivial) trivial
      trivial trivial
  simp only [passFor, hliving, hneedless, Bool.not_false, Bool.false_eq_true,
    if_false, if_true]
  split
  · exact hlets.adapt.tryBind fun _ => trivial
  · exact trivial

/-- **Nothing is said of a Service that is not being deleted and has no
destination**, whatever the pass for it comes to. -/
theorem asks_pass_mute (hliving : service.deleting = false)
    (hnowhere : ∀ a, ServiceView.destinationOf service ≠ .ok (some a)) :
    Asks Mute (Reconcile.pass settings defaults service).run := by
  unfold Reconcile.pass
  cases hview : ServiceView.of? service with
  | error e => exact trivial
  | ok view =>
      obtain ⟨ns, name, destination, -, -, hdestination, rfl⟩ :=
        ServiceView.of?_eq_ok_iff.mp hview
      refine asks_passFor_mute hliving ?_
      cases destination with
      | none => rw [ServiceView.qualifies_seen, Option.isSome_none, Bool.and_false]
      | some a => exact absurd hdestination (hnowhere a)

/-! ## Whole passes -/

/-- **A failure is not overlooked where there is somewhere to send the traffic**,
unless it is the one that the limiter has seen last; where there is not, nothing
is said of it. -/
theorem visible_of_destination {l l' : Limiter} {ns name mapping : String}
    (hns : service.namespace = some ns) (hname : service.name = some name)
    (hliving : service.deleting = false)
    (hfinalizer : service.finalizers.contains Mark.finalizer = true)
    (hmapping : service.annotation? Mark.ports = some mapping)
    (h : Leads (Beside service.key.text)
      (Reconcile.pass settings defaults service).run (l, []) (.error failure)
      (l', log)) :
    ((∃ a, ServiceView.destinationOf service = .ok (some a)) →
      (∀ e, l.entries.get? service.key.text = some e → e.error ≠ failure.message) →
      Visible service failure log) ∧
    ((∀ a, ServiceView.destinationOf service ≠ .ok (some a)) →
      ∀ x ∈ log, Mute x.1) := by
  refine ⟨?_, fun hnowhere => ?_⟩
  · rintro ⟨a, hdestination⟩ hnew
    have hview : ServiceView.of? service =
        .ok (ServiceView.seen service ⟨ns, name⟩ (some a)) :=
      ServiceView.of?_eq_ok_iff.mpr ⟨ns, name, some a, hns, hname, hdestination, rfl⟩
    have hkey := (ServiceView.of?_ok hview).1
    have hqualifies :
        (ServiceView.seen service ⟨ns, name⟩ (some a)).qualifies = true := by
      rw [ServiceView.qualifies_seen, hmapping]
      rfl
    rw [pass_eq_managed hview hliving hqualifies hfinalizer, ← hkey] at h
    rw [← hkey] at hnew
    exact managed_visible hkey rfl hnew h
  · exact (h.way (asks_pass_mute hliving hnowhere)).asked fun x hx =>
      absurd hx List.not_mem_nil

end PortForwarding.Report

/-! ## A router that takes no calls, and a Service that says no address -/

namespace PortForwarding.Sample

open Report Script Tally

def failing : Surroundings Limiter := fun r l =>
  match r with
  | .memory call =>
    let (reply, after) := call.answer 0 { Memory.empty with limiter := l }
    (reply, after.limiter)
  | .router call => (Stored.refusal call, l)
  | .store call => (call.failure .noTarget, l)
  | .now => (epoch, l)
  | .publish _ _ | .lock _ | .unlock _ => ((), l)
  | .cancelled => (false, l)

theorem failing_answers (r : Request) (l : Limiter) :
    Answers l r (failing r l).1 (failing r l).2 := by
  cases r with
  | memory call =>
      cases call with
      | observe subject error => exact ⟨0, rfl⟩
      | remaining subject => exact ⟨⟨0, rfl⟩, rfl⟩
      | claim key ports =>
          show (MemoryCall.answer 0 _ (.claim key ports)).2.limiter = l
          dsimp only [MemoryCall.answer]
          split <;> rfl
      | forget _ | retain _ _ | release _ _ | releaseAll _
      | countRetry _ | resetRetries _ =>
          exact rfl
  | router _ | store _ | publish _ _ | cancelled | now | lock _ | unlock _ => exact rfl

def failingPass (object : ServiceObject) :
    Except PassFailure Action × Limiter × List Exchange :=
  run (recording failing) (Reconcile.pass {} {} object).run (.empty, [])

theorem leads_failingPass (object : ServiceObject) (subject : String) :
    Leads (Beside subject) (Reconcile.pass {} {} object).run (.empty, [])
      (failingPass object).1 (failingPass object).2 :=
  leads_run (recording_may fun r l => ⟨l, .idle, failing_answers r l⟩) _ _

def misdirected : ServiceObject :=
  { service with annotations := (Mark.ipAddress, "nowhere") :: service.annotations }

end PortForwarding.Sample

namespace PortForwarding.Report

open Script Sample

theorem visible_of_destination_sample :
    Visible service (.router (.unreachable "down")) (failingPass service).2.2 := by
  have h := leads_failingPass service service.key.text
  have hfailure : (failingPass service).1 = .error (.router (.unreachable "down")) := by
    decide +kernel
  rw [hfailure] at h
  exact (visible_of_destination rfl rfl rfl rfl rfl h).1 ⟨.v4 10 0 0 5, by
    decide +kernel⟩ nofun

/-- **A failure is overlooked**: that of a Service whose address is none. -/
theorem misdirected_overlooked :
    ∃ (service : ServiceObject) (failure : PassFailure) (l l' : Limiter)
      (log : List Exchange),
      service.namespace.isSome ∧ service.name.isSome ∧ service.deleting = false ∧
      service.finalizers.contains Mark.finalizer = true ∧
      (service.annotation? Mark.ports).isSome ∧
      Leads (Beside service.key.text) (Reconcile.pass {} {} service).run (l, [])
        (.error failure) (l', log) ∧
      (∀ e, l.entries.get? service.key.text = some e → e.error ≠ failure.message) ∧
      service.annotation? Mark.errorContext = none ∧
      ¬Visible service failure log := by
  have h := leads_failingPass misdirected misdirected.key.text
  have hend : failingPass misdirected =
      (.error (.view (.invalidAddress "nowhere")), .empty, []) :=
    rfl
  rw [hend] at h
  refine ⟨misdirected, _, .empty, .empty, [], rfl, rfl, rfl, rfl, rfl, h, nofun, rfl, ?_⟩
  exact not_visible_of_mute fun x hx => absurd hx List.not_mem_nil

end PortForwarding.Report
