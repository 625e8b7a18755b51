import PortForwarding.Proofs.Pass.Anatomy
import PortForwarding.Proofs.Pass.Reconcile
import PortForwarding.Proofs.Record.Change
import PortForwarding.Proofs.Scene
import PortForwarding.Proofs.Service.View

/-!
# Passes for a Service come to rest

Every pass for a Service finds the object as the passes before have left it. What
is still to be done for it is a `Stage`: it may have to get the finalizer, to be
converged or to be let go. Each pass does one of these (`pass_gives`), and when
nothing is left, a pass does nothing at all (`pass_silent`). So two passes are
enough, whatever has been written on the Service before (`pass_settles`).
-/

namespace PortForwarding

open Listing Script Scene

/-! ## Marks on a scene -/

namespace Scene

variable {s t : Scene} {key : ServiceKey} {object object' : ServiceObject}
  {change : ServicePatch}

/-- The Service of that key is this object now, and the router and the memory are
as they were. -/
structure Shows (key : ServiceKey) (object : ServiceObject) (s t : Scene) : Prop where
  found : t.service? key = some object
  site : t.site = s.site

theorem getService_silent (h : s.service? key = some object) :
    Silent (fun r t => r = .ok object ∧ t = s) (getService key).run s := by
  refine ensures_request (r := .store (.get key)) ?_
  rintro _ rfl reply t hmay
  cases reply with
  | ok found =>
      obtain ⟨hfound, rfl⟩ := hmay
      rw [h] at hfound
      obtain rfl := Option.some.inj hfound
      exact ⟨rfl, rfl, rfl⟩
  | error e =>
      obtain ⟨hnone, -⟩ := hmay
      exact absurd (h.symm.trans hnone) (by simp)

theorem patchService_gives (h : s.service? key = some object) :
    Gives (fun r t => r = .ok () ∧ ∃ object', Patched change object object' ∧
      Shows key object' s t) (patchService key change).run s := by
  refine ensures_request (r := .store (.patch key change)) ?_
  rintro _ rfl reply t hmay
  cases reply with
  | ok u =>
      obtain ⟨found, object', hfound, hpatched, rfl⟩ := hmay
      rw [h] at hfound
      obtain rfl := Option.some.inj hfound
      have hkey : object'.key = key := hpatched.key.trans (service?_key h)
      exact ⟨trivial, rfl, object', hpatched, service?_withService h hkey, rfl⟩
  | error e =>
      obtain ⟨hnone, -⟩ := hmay
      exact absurd (h.symm.trans hnone) (by simp)

theorem annotate_gives (changes : List (String × Option String))
    (h : s.service? key = some object) :
    Gives (fun r t => r = .ok () ∧ ∃ object',
      Patched (.annotations changes) object object' ∧
        Shows key object' s t)
      (Mark.annotate key changes).run s := by
  unfold Mark.annotate
  split
  · next hnone =>
      obtain rfl := List.isEmpty_iff.mp hnone
      exact ensures_done ⟨rfl, object, ⟨fun _ => rfl, rfl⟩, h, rfl⟩
  · exact patchService_gives h

theorem addFinalizer_gives (h : s.service? key = some object) :
    Gives (fun r t => r = .ok () ∧ ∃ object', Marked object object' ∧
        object'.finalizers.contains Mark.finalizer = true ∧ Shows key object' s t)
      (Mark.addFinalizer key).run s := by
  refine (getService_silent h).gives.andThenOk ?_
  rintro t rfl
  split
  · next hhas => exact ensures_done ⟨rfl, object, .refl object, hhas, h, rfl⟩
  · refine (patchService_gives h).imp ?_
    rintro r u ⟨hr, object', hpatched, hshows⟩
    obtain ⟨hmarked, hnames⟩ := hpatched.marked_of_finalizers
    refine ⟨hr, object', hmarked, ?_, hshows⟩
    rw [hnames]
    simp [Mark.withOwn]

theorem removeFinalizer_gives (h : s.service? key = some object) :
    Gives (fun r t => r = .ok () ∧ ∃ object', Marked object object' ∧
        object'.finalizers.contains Mark.finalizer = false ∧ Shows key object' s t)
      (Mark.removeFinalizer key).run s := by
  have hnames : Gives (fun r t => r = .ok object.finalizers ∧ t = s)
      (Mark.currentFinalizers key).run s := by
    refine (getService_silent h).gives.andThen ?_
    rintro r t ⟨rfl, rfl⟩
    exact ensures_done ⟨rfl, rfl⟩
  refine hnames.andThenOk ?_
  rintro t rfl
  split
  · refine (patchService_gives h).imp ?_
    rintro r u ⟨hr, object', hpatched, hshows⟩
    obtain ⟨hmarked, hnames⟩ := hpatched.marked_of_finalizers
    refine ⟨hr, object', hmarked, ?_, hshows⟩
    rw [hnames]
    simp [Mark.withoutOwn]
  · next hhas =>
      exact ensures_done ⟨rfl, object, .refl object, Bool.eq_false_iff.mpr hhas,
        h, rfl⟩

end Scene

namespace Reconcile

variable {settings : CleanupSettings} {defaults : RuleDefaults} {key : ServiceKey}
  {object object' : ServiceObject} {view view' : ServiceView}
  {desired : List DesiredRule} {n : Nat} {s t : Scene}

/-! ## What is written -/

/-- What a successful pass writes on a Service is the operator's own state. -/
theorem marked_of_successMarks
    (h : Patched (.annotations (successMarks view)) object object') :
    Marked object object' := by
  refine h.marked_of_annotations fun name hname => ?_
  have herror : name ≠ Mark.errorContext := by
    rintro rfl
    exact hname (by decide)
  have hchange : name ≠ Mark.changeContext := by
    rintro rfl
    exact hname (by decide)
  rw [lookup_successMarks, if_neg herror, if_neg hchange]

/-- **Where a Service shows what a successful pass has written, nothing is left to
be written.** -/
theorem successMarks_again (hview : ServiceView.of? object = .ok view)
    (hview' : ServiceView.of? object' = .ok view')
    (hpatched : Patched (.annotations (successMarks view)) object object')
    (halike : ServiceView.Alike view view') : successMarks view' = [] := by
  have hafter : ∀ name, view'.annotation? name =
      ((successMarks view).lookup name).getD (view.annotation? name) := by
    intro name
    unfold ServiceView.annotation?
    rw [(ServiceView.of?_ok hview).2.1, (ServiceView.of?_ok hview').2.1]
    exact hpatched.1 name
  have herror : (view'.annotation? Mark.errorContext).isSome = false := by
    rw [hafter, lookup_successMarks, if_pos rfl]
    split
    · rfl
    · next hnone => exact Bool.eq_false_iff.mpr hnone
  have hrecord : ∃ record, previousChange view' = some record ∧
      (ChangeRecord.compute (some record) view').hasChanges = false := by
    have hchange := hafter Mark.changeContext
    rw [lookup_successMarks, if_neg (by decide), if_pos rfl] at hchange
    unfold previousChange
    split at hchange
    -- the record is the one that was written, and nothing has changed since
    · refine ⟨ChangeRecord.compute (previousChange view) view, ?_, ?_⟩
      · rw [hchange]
        exact ChangeRecord.decode_encode _
      · rw [halike.compute]
        exact ChangeRecord.hasChanges_compute_again _ _
    · next hkept =>
        simp only [Bool.or_eq_true, not_or, Bool.not_eq_true,
          Option.isNone_eq_false_iff] at hkept
        obtain ⟨record, hprevious⟩ := Option.isSome_iff_exists.mp hkept.1
        refine ⟨record, ?_, ?_⟩
        · rw [hchange]
          exact hprevious
        · rw [halike.compute, ← hprevious]
          exact hkept.2
  obtain ⟨record, hprevious, hsame⟩ := hrecord
  unfold successMarks
  simp [herror, hprevious, hsame]

/-! ## Stages of a pass -/

theorem planAgainstRouter_silent (key : ServiceKey) (desired : List DesiredRule)
    (s : Scene) :
    Silent (fun r t => r = .ok (planFor key desired s.site.rules
        (Takeover.revalidate (Takeover.detect key desired s.site.rules)
          s.site.rules)) ∧ t = s)
      (planAgainstRouter key desired).run s := by
  refine (listRules_silent s).andThenOk ?_
  rintro t rfl
  rw [Takeover.revalidate_detect]
  cases hdetect : Takeover.detect key desired t.site.rules with
  | nil => exact ensures_done ⟨rfl, rfl⟩
  | cons op ops =>
      refine (listRules_silent t).andThenOk ?_
      rintro u rfl
      rw [← hdetect, Takeover.revalidate_detect]
      exact ensures_done ⟨rfl, rfl⟩

theorem forget_silent (key : ServiceKey) (s : Scene) :
    Silent (fun _ t => Lapses s t) (forget key) s :=
  Lapsing.silent (asks_forget key trivial trivial) s

theorem announce_gives (view : ServiceView) (plan : List Operation) (s : Scene) :
    Gives (fun _ t => t = s) (announce view plan) s := by
  induction plan generalizing s with
  | nil => exact ensures_done rfl
  | cons op plan ih =>
      refine (publish_gives view.reference (appliedNote op) s).andThen ?_
      rintro _ t rfl
      exact ih t

/-- **The router is brought into line with a Service**, and that is noted on it. -/
theorem converge_gives (hs : s.site.Sound) (hkey : view.key.Valid)
    (hfound : s.service? view.key = some object)
    (hrules : Desired.rulesFor view defaults = .ok desired)
    (hfree : Free view.key desired s) :
    Gives (fun r t => r = .ok () ∧ t.site.Sound ∧ Free view.key desired t ∧
        Converged view.key desired t.site.rules ∧ ∃ object',
          Patched (.annotations (successMarks view)) object object' ∧
          t.service? view.key = some object')
      (converge defaults view).run s := by
  have hwanted := Desired.rulesFor_wanted hrules
  refine (claimDesired_silent hs hrules hfree).gives.adaptThenOk ?_
  rintro s₁ ⟨hsame, hclaimed⟩
  refine locked_ensures (fun _ _ _ _ => trivial) ?_
  refine (planAgainstRouter_silent view.key desired s₁).gives.adaptThenOk ?_
  rintro s₂ rfl
  have hsettles := settles_planFor s₂.site.rules hwanted
  rw [← Takeover.revalidate_detect] at hsettles
  refine (execute_gives hclaimed.sound hkey hwanted
    (Plan.wellFormed_planFor hwanted.asked hclaimed.sound.ids_nodup) hsettles
    Takeover.hosts_map_fst).adaptThenOk ?_
  rintro s₃ ⟨hworks, hconverged⟩
  refine (Lapsing.silent (asks_request (r := .memory (.retain _ _)) trivial)
    s₃).gives.liftThen ?_
  intro _ s₄ hretained
  refine (forget_silent view.key s₄).gives.liftThen ?_
  intro _ s₅ hforgotten
  have hlapses := hretained.trans hforgotten
  have hall : Works view.key desired s s₅ :=
    (hclaimed.trans hworks).trans (.of_lapses hworks.sound hlapses)
  have hfound₅ : s₅.service? view.key = some object := by
    unfold service?
    rw [hall.services]
    exact hfound
  refine (announce_gives view _ s₅).liftThen ?_
  rintro _ s₆ rfl
  show Gives _ ((Mark.annotate view.key (successMarks view)).adapt
    PassFailure.store).run s₆
  rw [run_adapt]
  refine (annotate_gives _ hfound₅).andThen ?_
  rintro r t ⟨rfl, object', hpatched, hshows⟩
  refine ensures_done ⟨rfl, ?_, ?_, ?_, object', hpatched, hshows.found⟩
  · rw [hshows.site]
    exact hall.sound
  · unfold Free
    rw [hshows.site]
    exact hfree.of_works hall
  · rw [hshows.site, hlapses.rules]
    exact hconverged

/-- **Where the router is in line with a Service and that is noted, nothing
is done.** -/
theorem converge_silent (hs : s.site.Sound)
    (hrules : Desired.rulesFor view defaults = .ok desired)
    (hfree : Free view.key desired s)
    (hconverged : Converged view.key desired s.site.rules)
    (hnoted : successMarks view = []) :
    Silent (fun r t => r = .ok () ∧ t.site.Sound ∧ Free view.key desired t ∧
        t.site.rules = s.site.rules ∧ t.services = s.services)
      (converge defaults view).run s := by
  have hwanted := Desired.rulesFor_wanted hrules
  refine (claimDesired_silent hs hrules hfree).adaptThenOk ?_
  rintro s₁ ⟨hsame, hclaimed⟩
  refine locked_ensures (fun _ _ _ h => h) ?_
  refine (planAgainstRouter_silent view.key desired s₁).adaptThenOk ?_
  rintro s₂ rfl
  have hplan : planFor view.key desired s₂.site.rules (Takeover.revalidate
      (Takeover.detect view.key desired s₂.site.rules) s₂.site.rules) = [] := by
    rw [hsame, Takeover.revalidate_detect, detect_of_converged hwanted hconverged]
    exact planFor_of_converged hwanted hconverged
  rw [hplan]
  -- an empty plan asks for nothing, and neither does telling of it
  refine (Lapsing.silent (asks_request (r := .memory (.retain _ _)) trivial)
    s₂).liftThen ?_
  intro _ s₃ hretained
  refine (forget_silent view.key s₃).liftThen ?_
  intro _ s₄ hforgotten
  have hlapses := hretained.trans hforgotten
  have hall : Works view.key desired s s₄ :=
    hclaimed.trans (.of_lapses hclaimed.sound hlapses)
  rw [hnoted]
  exact ensures_done
    ⟨rfl, hall.sound, hfree.of_works hall, hlapses.rules.trans hsame, hall.services⟩

theorem letGo_gives (hs : s.site.Sound) (hfound : s.service? view.key = some object) :
    Gives (fun r t => r = .ok () ∧ t.site.Sound ∧ ∃ object', Marked object object' ∧
        object'.finalizers.contains Mark.finalizer = false ∧
          t.service? view.key = some object')
      (letGo view).run s := by
  refine (annotate_gives (clearedState view) hfound).andThenOk ?_
  rintro s₁ ⟨object₁, hpatched, hshows⟩
  have hmarked : Marked object object₁ := by
    refine hpatched.marked_of_annotations fun name hname => ?_
    unfold clearedState
    rw [lookup_map_const, if_neg fun hmem => hname (List.mem_filter.mp hmem).1]
  refine (removeFinalizer_gives hshows.found).andThenOk ?_
  rintro s₂ ⟨object₂, hmarked₂, hoff, hshows₂⟩
  refine (Lapsing.silent (asks_request (r := .memory (.releaseAll _)) trivial)
    s₂).gives.liftThen ?_
  intro _ s₃ hreleased
  refine Ensures.lift ((forget_silent view.key s₃).gives.imp fun _ t hforgotten => ?_)
  have hlapses := hreleased.trans hforgotten
  refine ⟨rfl, hlapses.sound ?_, object₂, hmarked.trans hmarked₂, hoff, ?_⟩
  · rw [hshows₂.site, hshows.site]
    exact hs
  · unfold service?
    rw [hlapses.services]
    exact hshows₂.found

/-! ## One pass -/

/-- The Service as the API has it and as the operator sees it. -/
structure Seen (object : ServiceObject) (view : ServiceView) (s : Scene) : Prop where
  found : s.service? view.key = some object
  seen : ServiceView.of? object = .ok view
  living : view.deleting = false
  valid : view.key.Valid
  sound : s.site.Sound

theorem Seen.pass_eq (h : Seen object view s) :
    pass settings defaults object = passFor settings defaults view := by
  unfold pass
  rw [h.seen]

theorem Seen.hasFinalizer (h : Seen object view s) :
    view.hasFinalizer = object.finalizers.contains Mark.finalizer :=
  (ServiceView.of?_ok h.seen).2.2

theorem Seen.of_marked (h : Seen object view s) (hmarked : Marked object object')
    (hfound : t.service? view.key = some object') (ht : t.site.Sound) :
    ∃ view', ServiceView.Alike view view' ∧ Seen object' view' t := by
  obtain ⟨view', hview', halike⟩ := ServiceView.of?_of_marked h.seen hmarked
  refine ⟨view', halike, ?_, hview', halike.deleting.trans h.living, ?_, ht⟩
  · rw [halike.key]
    exact hfound
  · rw [halike.key]
    exact h.valid

/-- **How many passes a Service is from rest.** -/
inductive Stage (defaults : RuleDefaults) (view : ServiceView) (s : Scene) :
    Nat → Prop
  /-- It asks for nothing, and nothing holds it. -/
  | idle (asks : view.qualifies = false) (held : view.hasFinalizer = false) :
      Stage defaults view s 0
  /-- It owns what it wants, and that is noted. -/
  | settled (desired : List DesiredRule) (asks : view.qualifies = true)
      (held : view.hasFinalizer = true)
      (wants : Desired.rulesFor view defaults = .ok desired)
      (free : Free view.key desired s)
      (converged : Converged view.key desired s.site.rules)
      (noted : successMarks view = []) : Stage defaults view s 0
  /-- It asks for nothing any more, and has to be let go. -/
  | retired (asks : view.qualifies = false) (held : view.hasFinalizer = true) :
      Stage defaults view s 1
  /-- It has to be converged. -/
  | due (desired : List DesiredRule) (asks : view.qualifies = true)
      (held : view.hasFinalizer = true)
      (wants : Desired.rulesFor view defaults = .ok desired)
      (free : Free view.key desired s) : Stage defaults view s 1
  /-- It has to get the finalizer first. -/
  | asking (desired : List DesiredRule) (asks : view.qualifies = true)
      (held : view.hasFinalizer = false)
      (wants : Desired.rulesFor view defaults = .ok desired)
      (free : Free view.key desired s) : Stage defaults view s 2

/-- **A pass brings a Service a stage further.** -/
theorem pass_gives (hseen : Seen object view s)
    (hstage : Stage defaults view s (n + 1)) :
    Gives (fun _ t => ∃ object' view', view'.key = view.key ∧ Seen object' view' t ∧
        Stage defaults view' t n)
      (pass settings defaults object).run s := by
  cases hstage with
  | retired asks held =>
      have hpass : pass settings defaults object =
          (do (letGo view).adapt PassFailure.store; return .awaitChange) := by
        rw [hseen.pass_eq]
        simp [passFor, hseen.living, asks, held]
      rw [hpass]
      refine (letGo_gives hseen.sound hseen.found).adaptThenOk ?_
      rintro t ⟨hsound, object', hmarked, hoff, hfound⟩
      obtain ⟨view', halike, hseen'⟩ := hseen.of_marked hmarked hfound hsound
      refine ensures_done ⟨object', view', halike.key, hseen', .idle ?_ ?_⟩
      · rw [halike.qualifies, asks]
      · rw [hseen'.hasFinalizer, hoff]
  | asking desired asks held wants free =>
      have hpass : pass settings defaults object =
          (do (Mark.addFinalizer view.key).adapt PassFailure.store;
              return .requeue 0) := by
        rw [hseen.pass_eq]
        simp [passFor, hseen.living, asks, held]
      rw [hpass]
      refine (addFinalizer_gives hseen.found).adaptThenOk ?_
      rintro t ⟨object', hmarked, hon, hshows⟩
      have hsound : t.site.Sound := by
        rw [hshows.site]
        exact hseen.sound
      obtain ⟨view', halike, hseen'⟩ := hseen.of_marked hmarked hshows.found hsound
      refine ensures_done ⟨object', view', halike.key, hseen', .due desired ?_ ?_ ?_ ?_⟩
      · rw [halike.qualifies, asks]
      · rw [hseen'.hasFinalizer, hon]
      · rw [halike.rulesFor, wants]
      · unfold Free
        rw [halike.key, hshows.site]
        exact free
  | due desired asks held wants free =>
      rw [pass_eq_managed hseen.seen hseen.living asks held]
      refine (converge_gives hseen.sound hseen.valid hseen.found wants free).andThen ?_
      rintro _ t ⟨rfl, hsound, hfree, hconverged, object', hpatched, hfound⟩
      have hmarked := marked_of_successMarks hpatched
      obtain ⟨view', halike, hseen'⟩ := hseen.of_marked hmarked hfound hsound
      have hfinalizers : object'.finalizers = object.finalizers := by rw [hpatched.2]
      refine ensures_done ⟨object', view', halike.key, hseen', .settled desired ?_ ?_ ?_
        ?_ ?_ (successMarks_again hseen.seen hseen'.seen hpatched halike)⟩
      · rw [halike.qualifies, asks]
      · rw [hseen'.hasFinalizer, hfinalizers, ← hseen.hasFinalizer, held]
      · rw [halike.rulesFor, wants]
      · rw [halike.key]
        exact hfree
      · rw [halike.key]
        exact hconverged

/-- **At rest a pass does nothing.** -/
theorem pass_silent (hseen : Seen object view s) (hstage : Stage defaults view s 0) :
    Silent (fun r t => r = .ok .awaitChange ∧ Seen object view t ∧
      Stage defaults view t 0) (pass settings defaults object).run s := by
  cases hstage with
  | idle asks held =>
      have hpass : pass settings defaults object = (return .awaitChange) := by
        rw [hseen.pass_eq]
        simp [passFor, hseen.living, asks, held]
      rw [hpass]
      exact ensures_done ⟨rfl, hseen, .idle asks held⟩
  | settled desired asks held wants free converged noted =>
      rw [pass_eq_managed hseen.seen hseen.living asks held]
      refine (converge_silent hseen.sound wants free converged noted).andThen ?_
      rintro _ t ⟨rfl, hsound, hfree, hrules, hservices⟩
      refine ensures_done ⟨rfl, ⟨?_, hseen.seen, hseen.living, hseen.valid, hsound⟩,
        .settled desired asks held wants hfree ?_ noted⟩
      · unfold service?
        rw [hservices]
        exact hseen.found
      · rw [hrules]
        exact converged

/-! ## One pass after another -/

/-- So many passes for the Service of that key, each with the object as the API
has it then. -/
inductive Rounds (settings : CleanupSettings) (defaults : RuleDefaults)
    (key : ServiceKey) :
    Nat → Scene → Scene → Prop
  | none (s : Scene) : Rounds settings defaults key 0 s s
  | next {n : Nat} {s t u : Scene} {object : ServiceObject}
      {result : Except PassFailure Action}
      (earlier : Rounds settings defaults key n s t)
      (found : t.service? key = some object)
      (now : Leads May (pass settings defaults object).run t result u) :
      Rounds settings defaults key (n + 1) s u

/-- The Service of that key is so many passes from rest. -/
def Ahead (defaults : RuleDefaults) (key : ServiceKey) (n : Nat) (s : Scene) : Prop :=
  ∃ object view, view.key = key ∧ Seen object view s ∧ Stage defaults view s n

theorem Rounds.ahead {m : Nat} (h : Rounds settings defaults key m s t)
    (hs : Ahead defaults key n s) : Ahead defaults key (n - m) t := by
  induction h with
  | none s => exact hs
  | @next m s t u object result earlier found now ih =>
      obtain ⟨object', view, rfl, hseen, hstage⟩ := ih hs
      obtain rfl := Option.some.inj (found.symm.trans hseen.found)
      cases hleft : n - m with
      | zero =>
          rw [hleft] at hstage
          obtain ⟨-, hseen', hstage'⟩ := now.of_ensures (pass_silent hseen hstage)
          have hrest : n - (m + 1) = 0 := by omega
          rw [hrest]
          exact ⟨object, view, rfl, hseen', hstage'⟩
      | succ k =>
          rw [hleft] at hstage
          have hrest : n - (m + 1) = k := by omega
          rw [hrest]
          exact now.of_ensures (pass_gives hseen hstage)

theorem exists_rounds (m : Nat) (hs : Ahead defaults key n s) :
    ∃ t, Rounds settings defaults key m s t := by
  induction m with
  | zero => exact ⟨s, .none s⟩
  | succ m ih =>
      obtain ⟨t, hrounds⟩ := ih
      obtain ⟨object, view, rfl, hseen, -⟩ := hrounds.ahead hs
      obtain ⟨result, u, hleads⟩ := exists_leads (pass settings defaults object).run t
      exact ⟨u, .next hrounds hseen.found hleads⟩

/-- **Two passes bring a Service to rest**, whatever finalizers and annotations it
has: no pass after them writes anything or tells anything. -/
theorem pass_settles (hs : s.site.Sound)
    (hfound : s.service? view.key = some object)
    (hview : ServiceView.of? object = .ok view) (hkey : view.key.Valid)
    (hliving : view.deleting = false)
    (hwants : view.qualifies = true → ∃ desired, Desired.rulesFor view defaults =
      .ok desired ∧ Free view.key desired s) :
    (∀ m, ∃ t, Rounds settings defaults view.key m s t) ∧
    ∀ m t, 2 ≤ m → Rounds settings defaults view.key m s t →
      ∃ object', t.service? view.key = some object' ∧
        ∀ steps result u,
          Course May (pass settings defaults object').run t steps result u →
          Along (fun _ x _ => x.1.isOutward = false) t steps ∧
          ∀ r ∈ result, r = .ok .awaitChange := by
  have hseen : Seen object view s := ⟨hfound, hview, hliving, hkey, hs⟩
  have hahead : ∃ n, n ≤ 2 ∧ Ahead defaults view.key n s := by
    cases hasks : view.qualifies with
    | false =>
        cases hheld : view.hasFinalizer with
        | false => exact ⟨0, by omega, object, view, rfl, hseen, .idle hasks hheld⟩
        | true => exact ⟨1, by omega, object, view, rfl, hseen, .retired hasks hheld⟩
    | true =>
        obtain ⟨desired, hrules, hfree⟩ := hwants hasks
        cases hheld : view.hasFinalizer with
        | false =>
            exact ⟨2, by omega, object, view, rfl, hseen,
              .asking desired hasks hheld hrules hfree⟩
        | true =>
            exact ⟨1, by omega, object, view, rfl, hseen,
              .due desired hasks hheld hrules hfree⟩
  obtain ⟨n, hn, hahead⟩ := hahead
  refine ⟨fun m => exists_rounds m hahead, fun m t hm hrounds => ?_⟩
  obtain ⟨object', view', hkey', hseen', hstage⟩ := hrounds.ahead hahead
  have hrest : n - m = 0 := by omega
  rw [hrest] at hstage
  refine ⟨object', hkey' ▸ hseen'.found, fun steps result u hcourse => ?_⟩
  obtain ⟨halong, hend⟩ := hcourse.of_ensures (pass_silent hseen' hstage)
  exact ⟨halong, fun r hr => (hend r hr).1⟩

end Reconcile

/-! ## A Service with annotations that cannot be read -/

namespace Sample

def scribbled : ServiceObject :=
  { service with
    annotations := [(Mark.ports, "http"), (Mark.changeContext, "[1"),
      (Mark.errorContext, "?")]
    finalizers := [] }

def scribbledView : ServiceView :=
  { view with annotations := scribbled.annotations, hasFinalizer := false }

def scribbledScene : Scene := ⟨twice, [scribbled]⟩

theorem of?_scribbled : ServiceView.of? scribbled = .ok scribbledView := by
  rfl

theorem rulesFor_scribbled :
    Desired.rulesFor scribbledView {} = .ok [wish "http" 80 80] := by
  rfl

end Sample

open Sample in
theorem Reconcile.pass_settles_sample :
    Reconcile.previousChange scribbledView = none ∧
    scribbledView.hasFinalizer = false ∧
    ∃ t object, Rounds {} {} key 2 scribbledScene t ∧ t.service? key = some object ∧
      ∀ steps result u, Course May (pass {} {} object).run t steps result u →
        Along (fun _ x _ => x.1.isOutward = false) t steps ∧ ∀ r ∈ result,
          r = .ok .awaitChange := by
  have hfree : Free key [wish "http" 80 80] scribbledScene := by
    intro port _ k hholder
    have hnone : scribbledScene.site.holder? port = none := rfl
    exact absurd (hnone.symm.trans hholder) (by simp)
  obtain ⟨hmany, hrest⟩ :=
    @pass_settles {} {} scribbled scribbledView scribbledScene twice_sound rfl
    of?_scribbled key_valid rfl fun _ => ⟨_, rulesFor_scribbled, hfree⟩
  obtain ⟨t, hrounds⟩ := hmany 2
  obtain ⟨object, hfound, hsilent⟩ := hrest 2 t (Nat.le_refl 2) hrounds
  exact ⟨by decide +kernel, rfl, t, object, hrounds, hfound, hsilent⟩

end PortForwarding
