import PortForwarding.Proofs.Address.RoundTrip
import PortForwarding.Proofs.Pass.Aftermath
import PortForwarding.Proofs.Record.Change

/-!
# What has changed since the last success

A pass compares the Service with the record that it carries. That record is not
written in every pass: not in one that fails, and not in one that finds nothing
changed. All the same it describes the Service as the latest successful pass has
seen it (`Describes`), which is why a pass can say what has changed since then
(`changes_since_success`).

The router, the shared memory and the signal to stop may answer as they like, and
so may the API, except that a change that it refuses is not made.
-/

namespace PortForwarding.Tracking

open Reconcile Script Stored

variable {settings : CleanupSettings} {defaults : RuleDefaults} {view : ServiceView}
  {s t : Stored} {x y : Stored × List Exchange}

/-! ## Passes -/

/-- A pass for a Service that asks for ports and carries the finalizer, with all
that was asked and answered in it. -/
structure ManagedPass (settings : CleanupSettings) (defaults : RuleDefaults) where
  view : ServiceView
  first : Stored
  last : Stored
  result : Except PassFailure Action
  log : List Exchange
  seen : ServiceView.of? first.object = .ok view
  living : view.deleting = false
  qualifies : view.qualifies = true
  held : view.hasFinalizer = true
  leads : Leads (Recorded May) (pass settings defaults first.object).run
    (first, []) result (last, log)

def call? : Exchange → Option StoreCall
  | ⟨.store call, _⟩ => some call
  | _ => none

namespace ManagedPass

def succeeded (p : ManagedPass settings defaults) : Bool :=
  p.result.isOk

def record (p : ManagedPass settings defaults) : ChangeRecord :=
  .compute (previousChange p.view) p.view

def calls (p : ManagedPass settings defaults) : List StoreCall :=
  p.log.filterMap call?

end ManagedPass

/-- Passes of a Service, one after another, the first of which finds no record.
Between them the Service may be edited, as long as the record stays. -/
inductive History (settings : CleanupSettings) (defaults : RuleDefaults) :
    List (ManagedPass settings defaults) → Stored → Prop
  | start {s : Stored} (hnote : s.object.annotation? Mark.changeContext = none) :
      History settings defaults [] s
  | edited {ps : List (ManagedPass settings defaults)} {s t : Stored}
      (earlier : History settings defaults ps s)
      (hnote : t.object.annotation? Mark.changeContext =
        s.object.annotation? Mark.changeContext) :
      History settings defaults ps t
  | pass {ps : List (ManagedPass settings defaults)} (p : ManagedPass settings defaults)
      (earlier : History settings defaults ps p.first) :
      History settings defaults (ps ++ [p]) p.last

def lastSeen (ps : List (ManagedPass settings defaults)) : Option ServiceView :=
  (ps.filter ManagedPass.succeeded).getLast?.map ManagedPass.view

theorem lastSeen_snoc (ps : List (ManagedPass settings defaults))
    (p : ManagedPass settings defaults) :
    lastSeen (ps ++ [p]) = if p.succeeded then some p.view else lastSeen ps := by
  unfold lastSeen
  rw [List.filter_append, List.filter_singleton]
  cases p.succeeded <;> simp

/-! ## What a pass writes -/

/-- A successful pass puts its marks on the Service, and has nothing to do with
the API apart from that. -/
theorem marks_of_converge
    (h : Leads (Recorded May) (converge defaults view).run x (.ok ()) y) :
    ∃ u v, Way (Recorded May) Apart x u ∧
      Leads (Recorded May) (Mark.annotate view.key (successMarks view)).run
        u (.ok ()) v ∧
      Way (Recorded May) Apart v y := by
  obtain ⟨desired, x₁, x₂, -, hclaim, hlocked, hunlock⟩ := converge_succeeds h
  obtain ⟨plan, y₁, y₂, y₃, y₄, y₅, hplan, hexecute, hretain, hforget,
      hannounce, hannotate⟩ :=
    convergeLocked_ok hlocked
  have haside : ∀ r, Aside r → Apart r := fun _ hr => hr.backstage.unnoticed.apart
  have hplanned : Way (Recorded May) Apart x₁ y₁ :=
    hplan.way (asks_planAgainstRouter view.key desired trivial)
  have hexecuted : Way (Recorded May) Apart y₁ y₂ :=
    hexecute.way (Plan.asks_executeAfter _ _ _ (fun _ => trivial) trivial
      (fun _ _ => trivial) fun _ _ => trivial)
  have hforgotten : Way (Recorded May) Apart y₃ y₄ :=
    hforget.way (asks_forget view.key trivial trivial)
  have hannounced : Way (Recorded May) Apart y₄ y₅ :=
    hannounce.way (asks_announce plan fun _ => trivial)
  refine ⟨y₅, x₂, ?_, hannotate, hunlock.mono haside⟩
  exact ((((hclaim.mono haside).trans hplanned).trans hexecuted).trans
    ((hretain.mono haside).trans hforgotten)).trans hannounced

/-- Apart from the API the Service stays as it is, and the API is not called. -/
theorem unmarked_of_way (h : Way (Recorded May) Apart x y) :
    y.1.object = x.1.object ∧ y.2.filterMap call? = x.2.filterMap call? := by
  refine ⟨?_, h.unseen fun r reply hr => ?_⟩
  · refine h.preserves (P := fun z => z.1.object = x.1.object) ?_ rfl
    intro u r reply v hr hu hmay
    rw [hr.may hmay.1]
    exact hu
  · cases r with
    | store _ | now => exact hr.elim
    | router _ | memory _ | publish _ _ | cancelled | lock _ | unlock _ => rfl

/-- What comes of annotations that are written, and the call for it if there
are any. -/
theorem annotate_calls {changes : List (String × Option String)}
    (h : Leads (Recorded May) (Mark.annotate view.key changes).run x (.ok ()) y) :
    y.2.filterMap call? = x.2.filterMap call? ++
      if changes = [] then [] else [.patch view.key (.annotations changes)] := by
  unfold Mark.annotate at h
  split at h
  · next hnone =>
      obtain ⟨-, rfl⟩ := leads_done.mp h
      rw [if_pos (List.isEmpty_iff.mp hnone), List.append_nil]
  · next hsome =>
      have hpatch :
          Recorded May x (.store (.patch view.key (.annotations changes)))
          (.ok ()) y :=
        leads_request.mp h
      rw [picked_of_may hpatch, if_neg (by simpa using hsome)]
      rfl

namespace ManagedPass

variable (p : ManagedPass settings defaults)

theorem key_eq : p.view.key = p.first.object.key :=
  (ServiceView.of?_ok p.seen).1

theorem written (h : p.succeeded = true) :
    (∀ name, p.last.object.annotation? name =
      ((successMarks p.view).lookup name).getD (p.first.object.annotation? name)) ∧
    p.calls = if successMarks p.view = [] then []
      else [.patch p.view.key (.annotations (successMarks p.view))] := by
  have hleads := p.leads
  rw [pass_eq_managed p.seen p.living p.qualifies p.held] at hleads
  rcases managed_cases hleads with ⟨-, hconverge⟩ | ⟨failure, _, hfailed, -⟩
  · obtain ⟨u, v, hbefore, hannotate, hafter⟩ := marks_of_converge hconverge
    obtain ⟨hobject, hcalls⟩ := unmarked_of_way hbefore
    obtain ⟨hobject', hcalls'⟩ := unmarked_of_way hafter
    have hkey : p.view.key = u.1.object.key := by rw [hobject]; exact p.key_eq
    obtain ⟨hwritten, -⟩ := annotate_succeeds hkey hannotate
    refine ⟨fun name => ?_, ?_⟩
    · rw [hobject', hwritten, hobject]
    · show List.filterMap call? p.log = _
      rw [hcalls', annotate_calls hannotate, hcalls]
      rfl
  · rw [succeeded, hfailed] at h
    exact absurd h (by simp [Except.isOk, Except.toBool])

theorem unwritten (h : p.succeeded = false) :
    p.last.object.annotation? Mark.changeContext =
      p.first.object.annotation? Mark.changeContext := by
  have hleads := p.leads
  rw [pass_eq_managed p.seen p.living p.qualifies p.held] at hleads
  rcases managed_cases hleads with ⟨hok, -⟩ | ⟨failure, u, -, hconverge, hrecord⟩
  · rw [succeeded, hok] at h
    exact absurd h (by simp [Except.isOk, Except.toBool])
  · exact (uncommitted_of_leads p.key_eq hconverge hrecord).annotations _ (by decide)

end ManagedPass

/-! ## The record describes the latest success -/

/-- The record tells of this version of the Service. -/
structure Describes (record : ChangeRecord) (view : ServiceView) : Prop where
  ip : record.newIp = view.destination.map Address.text
  mapping : record.newMapping = view.mapping?
  ports : PortChange.portMap record.observedPorts = PortChange.portMap view.ports

/-- What the annotation holds, if this is the version that was seen last. -/
def Holds (note : Option String) : Option ServiceView → Prop
  | none => note = none
  | some view =>
      ∃ record, note.bind ChangeRecord.decode = some record ∧
        Describes record view

theorem describes_compute (previous : Option ChangeRecord) (view : ServiceView) :
    Describes (.compute previous view) view :=
  ⟨rfl, rfl, rfl⟩

/-- Where nothing has changed, the record before tells of the new version
as well. -/
theorem describes_of_unchanged {record : ChangeRecord}
    (h : (ChangeRecord.compute (some record) view).hasChanges = false) :
    Describes record view := by
  obtain ⟨⟨hip, hmapping⟩, hspec⟩ : (record.newIp = view.destination.map Address.text ∧
      record.newMapping = view.mapping?) ∧
        PortChange.between record.observedPorts view.ports = [] := by
    simpa [ChangeRecord.hasChanges, ChangeRecord.compute] using h
  exact ⟨hip, hmapping, PortChange.between_eq_nil_iff.mp hspec⟩

/-- A Service that asks for ports differs from one that was never seen. -/
theorem hasChanges_of_qualifies (h : view.qualifies = true) :
    (ChangeRecord.compute none view).hasChanges = true := by
  obtain ⟨-, hdestination⟩ :
      view.mapping?.isSome = true ∧ view.destination.isSome = true := by
    simpa [ServiceView.qualifies] using h
  obtain ⟨address, haddress⟩ := Option.isSome_iff_exists.mp hdestination
  simp [ChangeRecord.hasChanges, ChangeRecord.compute, ChangeRecord.empty, haddress]

namespace ManagedPass

variable (p : ManagedPass settings defaults)

theorem marks_record :
    ((previousChange p.view).isNone || p.record.hasChanges) =
      p.record.hasChanges := by
  unfold record
  cases hprevious : previousChange p.view with
  | none => rw [hasChanges_of_qualifies p.qualifies, Bool.or_true]
  | some previous => rfl

theorem note_of_changes (h : p.succeeded = true) :
    p.last.object.annotation? Mark.changeContext =
      if p.record.hasChanges then some p.record.encode
      else p.first.object.annotation? Mark.changeContext := by
  have hmarks := p.marks_record
  unfold record at hmarks ⊢
  rw [(p.written h).1, lookup_successMarks, if_neg (by decide), if_pos rfl, hmarks]
  cases (ChangeRecord.compute (previousChange p.view) p.view).hasChanges <;> rfl

/-- **One pass**: the record describes what the latest successful pass has seen. -/
theorem holds_last {seen : Option ServiceView}
    (h : Holds (p.first.object.annotation? Mark.changeContext) seen) :
    Holds (p.last.object.annotation? Mark.changeContext)
      (if p.succeeded then some p.view else seen) := by
  cases hsucceeded : p.succeeded with
  | false =>
      rw [p.unwritten hsucceeded]
      exact h
  | true =>
      rw [p.note_of_changes hsucceeded]
      cases hchanges : p.record.hasChanges with
      | true => exact ⟨p.record, ChangeRecord.decode_encode _, describes_compute _ _⟩
      | false =>
          have hread := ServiceView.annotation?_of_seen p.seen Mark.changeContext
          unfold record previousChange at hchanges
          rw [hread] at hchanges
          cases hprevious : (p.first.object.annotation? Mark.changeContext).bind
            ChangeRecord.decode with
          | none =>
              rw [hprevious, hasChanges_of_qualifies p.qualifies] at hchanges
              exact absurd hchanges (by simp)
          | some previous =>
              rw [hprevious] at hchanges
              exact ⟨previous, hprevious, describes_of_unchanged hchanges⟩

end ManagedPass

theorem History.holds {ps : List (ManagedPass settings defaults)}
    (h : History settings defaults ps s) :
    Holds (s.object.annotation? Mark.changeContext) (lastSeen ps) := by
  induction h with
  | start hnote => exact hnote
  | edited earlier hnote ih => exact hnote ▸ ih
  | pass p earlier ih =>
      rw [lastSeen_snoc]
      exact p.holds_last ih

/-! ## What a pass reports -/

/-- **The changes that a pass reports**, where this version of the Service was
seen before. -/
structure Reports (before : Option ServiceView)
    (p : ManagedPass settings defaults) : Prop where
  oldIp : p.record.oldIp = (before.bind ServiceView.destination).map Address.text
  oldMapping : p.record.oldMapping = before.bind ServiceView.mapping?
  ip : p.record.ipChanged = true ↔
    before.bind ServiceView.destination ≠ p.view.destination
  mapping : p.record.mappingChanged = true ↔
    before.bind ServiceView.mapping? ≠ p.view.mapping?
  spec : p.record.specChanged = true ↔
    PortChange.portMap ((before.map ServiceView.ports).getD []) ≠
      PortChange.portMap p.view.ports
  /-- The record is written with the changes. -/
  noted : p.succeeded = true → p.record.hasChanges = true →
    p.last.object.annotation? Mark.changeContext = some p.record.encode
  /-- Without changes nothing is written; only an earlier failure is taken off. -/
  quiet : p.succeeded = true → p.record.hasChanges = false →
    p.calls = if (p.view.annotation? Mark.errorContext).isSome then
      [.patch p.view.key (.annotations [(Mark.errorContext, none)])] else []

/-- What a pass compares with tells of the version that was seen last, or
of nothing. -/
theorem Holds.previous {seen : Option ServiceView} {p : ManagedPass settings defaults}
    (h : Holds (p.first.object.annotation? Mark.changeContext) seen) :
    ((previousChange p.view).getD .empty).newIp =
        (seen.bind ServiceView.destination).map Address.text ∧
      ((previousChange p.view).getD .empty).newMapping =
        seen.bind ServiceView.mapping? ∧
      PortChange.portMap ((previousChange p.view).getD .empty).observedPorts =
        PortChange.portMap ((seen.map ServiceView.ports).getD []) := by
  unfold previousChange
  rw [ServiceView.annotation?_of_seen p.seen]
  cases seen with
  | none =>
      have hnone : p.first.object.annotation? Mark.changeContext = none := h
      rw [hnone]
      exact ⟨rfl, rfl, rfl⟩
  | some before =>
      obtain ⟨record, hrecord, hdescribes⟩ := h
      rw [hrecord]
      exact ⟨hdescribes.ip, hdescribes.mapping, hdescribes.ports⟩

theorem ManagedPass.calls_of_unchanged (p : ManagedPass settings defaults)
    (hsucceeded : p.succeeded = true) (hchanges : p.record.hasChanges = false) :
    p.calls = if (p.view.annotation? Mark.errorContext).isSome then
      [.patch p.view.key (.annotations [(Mark.errorContext, none)])] else [] := by
  have hmarks : ((previousChange p.view).isNone ||
      (ChangeRecord.compute (previousChange p.view) p.view).hasChanges) = false :=
    p.marks_record.trans hchanges
  have hwrites : successMarks p.view =
      if (p.view.annotation? Mark.errorContext).isSome then
        [(Mark.errorContext, none)] else [] := by
    unfold successMarks
    dsimp only
    rw [hmarks]
    exact List.append_nil _
  rw [(p.written hsucceeded).2, hwrites]
  cases (p.view.annotation? Mark.errorContext).isSome <;> rfl

/-- **Changes are relative to the latest success**, however many passes have
failed or have found nothing changed in the meantime. -/
theorem changes_since_success {ps : List (ManagedPass settings defaults)}
    (p : ManagedPass settings defaults) (h : History settings defaults ps p.first) :
    Reports (lastSeen ps) p := by
  obtain ⟨hip, hmapping, hports⟩ := h.holds.previous
  constructor
  case oldIp => exact hip
  case oldMapping => exact hmapping
  case ip =>
    show decide (_ ≠ p.view.destination.map Address.text) = true ↔ _
    rw [decide_eq_true_iff, hip]
    exact not_congr (Option.map_injective Address.text_injective).eq_iff
  case mapping =>
    show decide (_ ≠ p.view.mapping?) = true ↔ _
    rw [decide_eq_true_iff, hmapping]
  case spec =>
    show (!(PortChange.between _ p.view.ports).isEmpty) = true ↔ _
    rw [Bool.not_eq_true', ← hports, ← not_iff_not]
    simp [PortChange.between_eq_nil_iff]
  case noted =>
    intro hsucceeded hchanges
    rw [p.note_of_changes hsucceeded, if_pos hchanges]
  case quiet => exact p.calls_of_unchanged

end PortForwarding.Tracking

/-! ## A success, a failure and an edit -/

namespace PortForwarding.Sample

open Reconcile Script Tracking

variable (router : (call : RouterCall) → call.Reply) (s : Stored)

def passOver : Except PassFailure Action × Stored × List Exchange :=
  run (recording (answering router)) (pass {} {} s.object).run (s, [])

variable {s} in
/-- The view of the Service that asks for a port, whatever is noted on it. -/
theorem of?_viewOf
    (hrest : { s.object with annotations := [] } =
      { service with annotations := [] })
    (haddress : s.object.annotation? Mark.ipAddress = none) :
    ServiceView.of? s.object = .ok (viewOf s) := by
  have hobject : s.object = { service with annotations := s.object.annotations } := by
    have hwith := congrArg (fun o => { o with annotations := s.object.annotations }) hrest
    exact hwith
  have hdestination : ServiceView.destinationOf s.object = .ok (some (.v4 10 0 0 5)) := by
    unfold ServiceView.destinationOf
    rw [haddress, hobject]
    rfl
  refine ServiceView.of?_eq_ok_iff.mpr ⟨"default", "web", _, ?_, ?_, hdestination, ?_⟩
  all_goals rw [hobject]; rfl

def managedPass (hseen : ServiceView.of? s.object = .ok (viewOf s))
    (hqualifies : (viewOf s).qualifies = true) : ManagedPass {} {} where
  view := viewOf s
  first := s
  last := (passOver router s).2.1
  result := (passOver router s).1
  log := (passOver router s).2.2
  seen := hseen
  living := rfl
  qualifies := hqualifies
  held := rfl
  leads := leads_run (recording_may (answering_may router)) _ _

def converged : Stored :=
  (passOver doubled noted).2.1

def fallen : Stored :=
  (passOver Stored.refusal converged).2.1

def remapped : Stored :=
  { fallen with
    object := fallen.object.patch (.annotations [(Mark.ports, some "http:8081")]) }

def firstSuccess : ManagedPass {} {} :=
  managedPass doubled noted (of?_viewOf rfl rfl) rfl

def failureAfter : ManagedPass {} {} :=
  managedPass Stored.refusal converged
    (of?_viewOf (by decide +kernel) (by decide +kernel)) (by decide +kernel)

def noticing : ManagedPass {} {} :=
  managedPass doubled remapped (of?_viewOf (by decide +kernel) (by decide +kernel))
    (by decide +kernel)

theorem history_noticing :
    History {} {} [firstSuccess, failureAfter] noticing.first := by
  have hnone : noted.object.annotation? Mark.changeContext = none := by
    decide +kernel
  have hkept : remapped.object.annotation? Mark.changeContext =
      fallen.object.annotation? Mark.changeContext :=
    (patched_patch (.annotations [(Mark.ports, some "http:8081")]) fallen.object).1 _
  exact .edited (.pass failureAfter (.pass firstSuccess (.start hnone))) hkept

end PortForwarding.Sample

namespace PortForwarding.Tracking

open Sample

theorem changes_since_success_sample :
    Reports (some notedView) noticing ∧ noticing.record.oldMapping = some "http" ∧
      noticing.record.mappingChanged = true := by
  have hseen : lastSeen [firstSuccess, failureAfter] = some notedView := by
    decide +kernel
  have hreports := changes_since_success noticing history_noticing
  rw [hseen] at hreports
  refine ⟨hreports, hreports.oldMapping.trans rfl, hreports.mapping.mpr ?_⟩
  decide +kernel

end PortForwarding.Tracking
