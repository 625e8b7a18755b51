import PortForwarding.Proofs.Plan.WellFormed
import PortForwarding.Proofs.Pass.Asks
import PortForwarding.Proofs.Service.Stored
import PortForwarding.Proofs.Shared

/-!
# Where nothing fails and nobody else acts

A `Scene` is all that passes reach: the router and the memory, and the Services as
the Kubernetes API has them. `Scene.May` are the rules by which it answers as long
as nothing fails, no signal to stop is given and one pass comes after another. It
always answers (`exists_leads`), so that what is said of all runs is said of
something.

What a Service makes of a scene is `Works`: nothing becomes of the rules of
others, unless they are on slots that it wants (`execute_gives`).
-/

namespace PortForwarding

open Listing Script Operation

/-! ## The scene -/

/-- The router, the memory and the Services. -/
@[ext] structure Scene where
  site : Site
  services : List ServiceObject

/-- The request is one that is seen outside: something is written, or told. -/
def Request.isOutward : Request → Bool
  | .router call => call.isMutation
  | .store (.patch _ _) => true
  | .publish _ _ => true
  | _ => false

namespace Scene

def service? (s : Scene) (key : ServiceKey) : Option ServiceObject :=
  s.services.find? fun o => decide (o.key = key)

def withService (s : Scene) (key : ServiceKey) (object : ServiceObject) : Scene :=
  { s with services := s.services.map fun o => if o.key = key then object else o }

def withMemory (s : Scene) (memory : Memory) : Scene :=
  { s with site := { s.site with memory := memory } }

/-- What may be answered, and how things are then. Nothing fails; only what is not
there is not found. -/
def May : Possible Scene := fun s request reply t =>
  match request, reply with
  | .store (.get key), .ok object => s.service? key = some object ∧ t = s
  | .store (.get key), .error _ => s.service? key = none ∧ t = s
  | .store (.patch key change), .ok () =>
    ∃ object object', s.service? key = some object ∧ Patched change object object' ∧
      t = s.withService key object'
  | .store (.patch key _), .error _ => s.service? key = none ∧ t = s
  | request, reply => Shared.Smooth s.services s.site request reply ∧
    Site.May False s.site request reply t.site ∧ t.services = s.services

abbrev Silent {α : Type} (post : α → Scene → Prop) (script : Script α)
    (s : Scene) : Prop :=
  Ensures May Eq (fun _ x _ => x.1.isOutward = false) post script s

abbrev Gives {α : Type} (post : α → Scene → Prop) (script : Script α)
    (s : Scene) : Prop :=
  Ensures May Eq (fun _ _ _ => True) post script s

variable {α ε : Type} {s t u : Scene} {key : ServiceKey}
  {object object' : ServiceObject} {step : Scene → Exchange → Scene → Prop}

theorem service?_key (h : s.service? key = some object) : object.key = key := by
  simpa using List.find?_some h

theorem service?_withService (h : s.service? key = some object)
    (hkey : object'.key = key) :
    (s.withService key object').service? key = some object' := by
  unfold service? withService at *
  rw [List.find?_map]
  have hfind : (s.services.find? ((fun o => decide (o.key = key)) ∘
      fun o => if o.key = key then object' else o)) = some object := by
    rw [← h]
    congr 1
    funext o
    by_cases ho : o.key = key <;> simp [ho, hkey]
  rw [hfind]
  have hobject : object.key = key := by simpa using List.find?_some h
  simp [hobject]

/-! ## An answer to everything -/

def longest : List String → Nat
  | [] => 0
  | text :: texts => max text.length (longest texts)

theorem length_le_longest {texts : List String} {text : String} (h : text ∈ texts) :
    text.length ≤ longest texts := by
  induction texts with
  | nil => exact absurd h List.not_mem_nil
  | cons first texts ih =>
      rcases List.mem_cons.mp h with rfl | h
      · exact Nat.le_max_left _ _
      · exact Nat.le_trans (ih h) (Nat.le_max_right _ _)

/-- An identifier that was never given out: it is longer than all that were. -/
def newId (issued : List String) : String :=
  String.ofList (List.replicate (longest issued + 1) 'i')

theorem newId_notMem (issued : List String) : newId issued ∉ issued := by
  intro hmem
  have hle := length_le_longest hmem
  unfold newId at hle
  simp only [String.length_ofList, List.length_replicate] at hle
  omega

def answer : Surroundings Scene := fun r s =>
  match r with
  | .router .list => (.ok s.site.rules, s)
  | .router (.add spec) =>
    let rule : RouterRule := ⟨newId s.site.issued, spec⟩
    (.ok rule, { s with site := { s.site with
      rules := s.site.rules ++ [rule], issued := rule.id :: s.site.issued } })
  | .router (.update id spec) =>
    if id ∈ ids s.site.rules then
      (.ok ⟨id, spec⟩, { s with
        site := { s.site with rules := overwrite id spec s.site.rules } })
    else (.error (.notFound id), { s with site := { s.site with stopped := true } })
  | .router (.remove id) =>
    if id ∈ ids s.site.rules then
      (.ok (), { s with site := { s.site with rules := without id s.site.rules } })
    else (.error (.notFound id), { s with site := { s.site with stopped := true } })
  | .router .ready => (.ok true, s)
  | .store .list => (.ok s.services, s)
  | .store (.get key) =>
    match s.service? key with
    | some object => (.ok object, s)
    | none => (.error (.refused 404 "not found"), s)
  | .store (.patch key change) =>
    match s.service? key with
    | some object => (.ok (), s.withService key (object.patch change))
    | none => (.error (.refused 404 "not found"), s)
  | .memory call =>
    ((call.answer 0 s.site.memory).1, s.withMemory (call.answer 0 s.site.memory).2)
  | .publish _ _ | .lock _ | .unlock _ => ((), s)
  | .cancelled => (false, s)
  | .now => (default, s)

theorem answer_may (r : Request) (s : Scene) :
    May s r (answer r s).1 (answer r s).2 := by
  cases r with
  | router call =>
      cases call with
      | list => exact ⟨trivial, ⟨rfl, rfl⟩, rfl⟩
      | add spec => exact ⟨trivial, ⟨rfl, newId_notMem _, rfl⟩, rfl⟩
      | update id spec =>
          by_cases hid : id ∈ ids s.site.rules
          · simp only [answer, if_pos hid]
            exact ⟨trivial, ⟨rfl, hid, rfl⟩, rfl⟩
          · simp only [answer, if_neg hid]
            exact ⟨⟨rfl, hid⟩, ⟨fun hdenies => hid hdenies.2, rfl⟩, rfl⟩
      | remove id =>
          by_cases hid : id ∈ ids s.site.rules
          · simp only [answer, if_pos hid]
            exact ⟨trivial, ⟨hid, rfl⟩, rfl⟩
          · simp only [answer, if_neg hid]
            exact ⟨⟨rfl, hid⟩, ⟨fun hdenies => hid hdenies.2, rfl⟩, rfl⟩
      | ready => exact ⟨trivial, rfl, rfl⟩
  | store call =>
      cases call with
      | list => exact ⟨rfl, rfl, rfl⟩
      | get key =>
          cases hobject : s.service? key with
          | none => simp only [answer, hobject]; exact ⟨hobject, rfl⟩
          | some object => simp only [answer, hobject]; exact ⟨hobject, rfl⟩
      | patch key change =>
          cases hobject : s.service? key with
          | none => simp only [answer, hobject]; exact ⟨hobject, rfl⟩
          | some object =>
              simp only [answer, hobject]
              exact ⟨object, _, hobject, patched_patch change object, rfl⟩
  | memory call => exact ⟨trivial, ⟨0, rfl, rfl⟩, rfl⟩
  | publish _ _ => exact ⟨trivial, rfl, rfl⟩
  | lock _ => exact ⟨trivial, rfl, rfl⟩
  | unlock _ => exact ⟨trivial, rfl, rfl⟩
  | cancelled => exact ⟨rfl, by simp [answer, Site.May], rfl⟩
  | now => exact ⟨trivial, rfl, rfl⟩

/-- **Every script comes to an end.** -/
theorem exists_leads (script : Script α) (s : Scene) :
    ∃ a t, Leads May script s a t :=
  ⟨_, _, leads_run answer_may script s⟩

/-! ## One request -/

theorem Silent.ensures {post : α → Scene → Prop} {script : Script α}
    (h : Silent post script s)
    (hstep : ∀ s x t, x.1.isOutward = false → step s x t) :
    Ensures May Eq step post script s :=
  h.mono hstep fun _ _ hpost => hpost

theorem Silent.gives {post : α → Scene → Prop} {script : Script α}
    (h : Silent post script s) : Gives post script s :=
  h.ensures fun _ _ _ _ => trivial

theorem listRules_silent (s : Scene) :
    Silent (fun r t => r = .ok s.site.rules ∧ t = s) listRules.run s := by
  refine ensures_request (r := .router .list) ?_
  rintro _ rfl reply t ⟨hsmooth, hsite, hservices⟩
  obtain ⟨hsame, hreply⟩ := Site.may_list hsite
  rcases hreply with rfl | ⟨e, rfl⟩
  · exact ⟨rfl, rfl, Scene.ext hsame hservices⟩
  · exact hsmooth.elim

theorem listServices_silent (s : Scene) :
    Silent (fun r t => r = .ok s.services ∧ t = s) listServices.run s := by
  refine ensures_request (r := .store .list) ?_
  rintro _ rfl reply t ⟨hreply, hsite, hservices⟩
  exact ⟨rfl, hreply, Scene.ext hsite hservices⟩

theorem isCancelled_silent (s : Scene) :
    Silent (fun seen t => seen = false ∧ t = s) isCancelled s := by
  refine ensures_request (r := .cancelled) ?_
  rintro _ rfl seen t ⟨hseen, hsite, hservices⟩
  obtain rfl : seen = false := hseen
  exact ⟨rfl, rfl, Scene.ext (Site.may_notCancelled hsite) hservices⟩

theorem memory_silent (call : MemoryCall) (s : Scene) :
    Silent (fun r t => ∃ now, r = (call.answer now s.site.memory).1 ∧
      t = s.withMemory (call.answer now s.site.memory).2) (memory call) s := by
  refine ensures_request (r := .memory call) ?_
  rintro _ rfl reply t ⟨-, ⟨now, hreply, hsite⟩, hservices⟩
  exact ⟨rfl, now, hreply, Scene.ext hsite hservices⟩

theorem may_still {r : Request} {reply : r.Reply}
    (hr : (∃ key, r = .lock key) ∨ (∃ key, r = .unlock key) ∨
      ∃ object note, r = .publish object note)
    (h : May s r reply t) : t = s := by
  rcases hr with ⟨key, rfl⟩ | ⟨key, rfl⟩ | ⟨object, note, rfl⟩ <;>
  exact Scene.ext h.2.1 h.2.2

theorem publish_gives (object : ObjectReference) (note : Notification) (s : Scene) :
    Gives (fun _ t => t = s) (publish object note) s := by
  refine ensures_request (r := .publish object note) ?_
  rintro _ rfl reply t hmay
  exact ⟨trivial, may_still (Or.inr (Or.inr ⟨object, note, rfl⟩)) hmay⟩

theorem locked_ensures {post : α → Scene → Prop} {body : Script α}
    (hstep : ∀ s x t, x.1.isOutward = false → step s x t)
    (h : Ensures May Eq step post body s) :
    Ensures May Eq step post (locked key body) s := by
  refine Ensures.locked (ensures_request (r := .lock key) ?_)
  rintro _ rfl reply t hlock
  obtain rfl := may_still (Or.inl ⟨key, rfl⟩) hlock
  refine ⟨hstep _ _ _ rfl, h.imp fun a u hpost => ensures_request (r := .unlock key) ?_⟩
  rintro _ rfl reply v hunlock
  obtain rfl := may_still (Or.inr (Or.inl ⟨key, rfl⟩)) hunlock
  exact ⟨hstep _ _ _ rfl, hpost⟩

/-! ## Memory that is given back -/

/-- Nothing has happened but that reservations may have been given back. -/
structure Lapses (s t : Scene) : Prop where
  rules : t.site.rules = s.site.rules
  issued : t.site.issued = s.site.issued
  services : t.services = s.services
  holders : ∀ port k, t.site.holder? port = some k → s.site.holder? port = some k

theorem Lapses.refl (s : Scene) : Lapses s s :=
  ⟨rfl, rfl, rfl, fun _ _ h => h⟩

theorem Lapses.trans (h : Lapses s t) (h' : Lapses t u) : Lapses s u :=
  ⟨h'.rules.trans h.rules, h'.issued.trans h.issued, h'.services.trans h.services,
    fun port k hholder => h.holders port k (h'.holders port k hholder)⟩

theorem Lapses.sound (h : Lapses s t) (hs : s.site.Sound) : t.site.Sound :=
  hs.of_sublist (by rw [h.rules]) h.issued

def Lapsing : Request → Prop
  | .memory (.claim _ _) => False
  | .memory _ => True
  | _ => False

theorem Lapsing.lapses {call : MemoryCall} {now : Nat} (h : Lapsing (.memory call)) :
    Lapses s (s.withMemory (call.answer now s.site.memory).2) := by
  refine ⟨rfl, rfl, rfl, fun port k hholder => ?_⟩
  cases call with
  | claim _ _ => exact h.elim
  | retain owner keep =>
      change (s.site.memory.reservations.retain owner keep).holder? port =
        some k at hholder
      rw [Reservations.holder?_retain] at hholder
      split at hholder
      · exact absurd hholder (by simp)
      · exact hholder
  | release owner given =>
      change (s.site.memory.reservations.release owner given).holder? port =
        some k at hholder
      rw [Reservations.holder?_release] at hholder
      split at hholder
      · exact absurd hholder (by simp)
      · exact hholder
  | releaseAll owner =>
      change (s.site.memory.reservations.retain owner []).holder? port = some k at hholder
      rw [Reservations.holder?_retain] at hholder
      split at hholder
      · exact absurd hholder (by simp)
      · exact hholder
  | observe _ _ | remaining _ | forget _ | countRetry _ | resetRetries _ => exact hholder

theorem Lapsing.silent {script : Script α} (hasks : Asks Lapsing script) (s : Scene) :
    Silent (fun _ t => Lapses s t) script s := by
  refine hasks.ensures (P := fun t => Lapses s t) (fun h heq => heq ▸ h)
    (fun {u r reply t} hr hu hmay => ?_) (.refl s)
  cases r with
  | memory call =>
      obtain ⟨-, ⟨now, -, hsite⟩, hservices⟩ := hmay
      obtain rfl : t = u.withMemory (call.answer now u.site.memory).2 :=
        Scene.ext hsite hservices
      exact ⟨rfl, hu.trans (Lapsing.lapses hr)⟩
  | router _ | store _ | publish _ _ | cancelled | now | lock _ | unlock _ =>
      exact hr.elim

/-! ## What one Service makes of a scene -/

/-- **The Service works for itself**: it takes no ports but those that it wants,
and nothing becomes of the rules of others. -/
structure Works (key : ServiceKey) (desired : List DesiredRule) (s t : Scene) :
    Prop where
  sound : t.site.Sound
  services : t.services = s.services
  holders : ∀ port k, t.site.holder? port = some k →
    s.site.holder? port = some k ∨ k = key ∧ port ∈ Desired.externalPorts desired
  spares : ∀ p, Plan.Elsewhere key desired s.site.rules p →
    (t.site.rules.filter fun r => p r.spec) = s.site.rules.filter fun r => p r.spec

variable {desired : List DesiredRule} {plan : List Operation} {op : Operation}

theorem Works.refl (hs : s.site.Sound) : Works key desired s s :=
  ⟨hs, rfl, fun _ _ h => Or.inl h, fun _ _ => rfl⟩

theorem Works.trans (h : Works key desired s t) (h' : Works key desired t u) :
    Works key desired s u := by
  refine ⟨h'.sound, h'.services.trans h.services, fun port k hholder => ?_,
    fun p hp => ?_⟩
  · rcases h'.holders port k hholder with hheld | hwanted
    · exact h.holders port k hheld
    · exact Or.inr hwanted
  · have hsame := h.spares p hp
    exact (h'.spares p (hp.of_filter_eq hsame)).trans hsame

theorem Works.of_lapses (hs : s.site.Sound) (h : Lapses s t) :
    Works key desired s t :=
  ⟨h.sound hs, h.services, fun port k hholder => Or.inl (h.holders port k hholder),
    fun _ _ => by rw [h.rules]⟩

/-! ## One plan -/

/-- What has come of a plan that was carried out to its end. -/
structure Carried (plan : List Operation) (s t : Scene) : Prop where
  sound : t.site.Sound
  services : t.services = s.services
  holders : ∀ port k, t.site.holder? port = some k → s.site.holder? port = some k
  rest : ∀ p : RuleSpec → Bool, (∀ op ∈ plan, ∀ spec ∈ op.taken ++ op.given,
    p spec = false) →
    (t.site.rules.filter fun r => p r.spec) = s.site.rules.filter fun r => p r.spec
  balance : (specs t.site.rules ++ plan.flatMap taken).Perm
    (specs s.site.rules ++ plan.flatMap given)

/-- **One operation is carried out.** -/
theorem attempt_gives (hop : op.IsGrounded s.site.rules) :
    Gives (fun r t => ∃ applied, r = .ok applied ∧ t.services = s.services ∧
      Site.Applies op applied.id s.site t.site) (Plan.attempt op).run s := by
  rcases hop.cases with hk | ⟨e, he, hex, hk | hk⟩
  · have hattempt : Plan.attempt op = addRule op.rule.spec := by
      simp only [Plan.attempt, hk]
    rw [hattempt]
    refine ensures_request (r := .router (.add op.rule.spec)) ?_
    rintro _ rfl reply t ⟨hsmooth, hsite, hservices⟩
    rcases Site.may_add hsite with ⟨rule, rfl, hspec, hid, ht⟩ | ⟨e, rfl, -⟩
    · refine ⟨trivial, rule, rfl, hservices, ?_, fun _ => ⟨hid, ?_⟩,
        fun hne => absurd hk hne, ?_, ?_⟩
      · rw [ht, apply_of_create hk, ← hspec]
      · rw [ht]
      · rw [ht]
      · rw [ht]
    · exact hsmooth.elim
  · have hattempt : Plan.attempt op = updateRule e.id op.rule.spec := by
      simp only [Plan.attempt, hk, hex]
    rw [hattempt]
    refine ensures_request (r := .router (.update e.id op.rule.spec)) ?_
    rintro _ rfl reply t ⟨hsmooth, hsite, hservices⟩
    rcases Site.may_update hsite with ⟨rfl, -, ht⟩ | ⟨err, rfl, -, -⟩
    · refine ⟨trivial, _, rfl, hservices, ?_,
        fun hne => absurd hne (by simp [hk]), fun _ => ?_, ?_, ?_⟩
      · rw [ht, apply_of_update hk hex]
      · rw [ht]
      · rw [ht]
      · rw [ht]
    · exact absurd (mem_ids_of_mem he) hsmooth.2
  · have hattempt : Plan.attempt op = (do removeRule e.id; return e) := by
      simp only [Plan.attempt, hk, hex]
    have hremove : Gives (fun r t => r = .ok () ∧ t.services = s.services ∧
        t.site = { s.site with rules := without e.id s.site.rules })
            (removeRule e.id).run s := by
      refine ensures_request (r := .router (.remove e.id)) ?_
      rintro _ rfl reply t ⟨hsmooth, hsite, hservices⟩
      rcases Site.may_remove hsite with ⟨rfl, -, ht⟩ | ⟨err, rfl, -, -⟩
      · exact ⟨trivial, rfl, hservices, ht⟩
      · exact absurd (mem_ids_of_mem he) hsmooth.2
    rw [hattempt]
    refine hremove.andThenOk ?_
    rintro t ⟨hservices, ht⟩
    refine ensures_done ⟨e, rfl, hservices, ?_,
      fun hne => absurd hne (by simp [hk]), fun _ => ?_, ?_, ?_⟩
    · rw [ht, apply_of_delete hk hex]
    · rw [ht]
    · rw [ht]
    · rw [ht]

/-- **A grounded plan is carried out to its end.** -/
theorem executeAfter_gives (hs : s.site.Sound)
    (hplan : Plan.Grounded s.site.rules plan) (needed : List UInt16)
    (done : List Completed) :
    Gives (fun r t => r = .ok () ∧ Carried plan s t)
      (Plan.executeAfter needed done plan).run s := by
  -- over the plan: each operation moves on what is grounded and what is balanced
  induction plan generalizing s done with
  | nil =>
      exact ensures_done ⟨rfl, hs, rfl, fun _ _ h => h, fun _ _ => rfl, List.Perm.refl _⟩
  | cons op plan ih =>
      have hop := hplan.each op List.mem_cons_self
      refine (isCancelled_silent s).gives.andThen ?_
      rintro seen s ⟨rfl, rfl⟩
      refine (attempt_gives hop).andThen ?_
      rintro r s₁ ⟨applied, rfl, hservices, happlies⟩
      have hreleases : Asks Lapsing (Plan.releaseUnused needed op) :=
        Plan.asks_releaseUnused needed op fun _ _ => trivial
      refine (Lapsing.silent hreleases s₁).gives.andThen ?_
      intro released s₂ hlapses
      have hs₂ : s₂.site.Sound := hlapses.sound (happlies.sound hs hop)
      have hrules : s₂.site.rules = op.apply applied.id s.site.rules :=
        hlapses.rules.trans happlies.rules
      have htail : Plan.Grounded s₂.site.rules plan := by
        rw [hrules]
        exact hplan.tail
      refine (ih hs₂ htail _).imp ?_
      rintro r t ⟨hr, hrest⟩
      refine ⟨hr, hrest.sound, hrest.services.trans (hlapses.services.trans hservices),
        fun port k hholder => ?_, fun p hp => ?_, ?_⟩
      · have hheld := hlapses.holders port k (hrest.holders port k hholder)
        unfold Site.holder? at hheld ⊢
        rw [happlies.memory] at hheld
        exact hheld
      · have hlater := hrest.rest p fun op' hop' => hp op' (List.mem_cons_of_mem _ hop')
        rw [hlater, hrules]
        exact filter_apply hs.ids_nodup hop (hp op List.mem_cons_self)
      · have hhead := specs_apply_perm applied.id hs.ids_nodup hop
        have hbalance := hrest.balance
        rw [hrules] at hbalance
        rw [List.perm_iff_count] at hhead hbalance ⊢
        intro c
        have h₁ := hhead c
        have h₂ := hbalance c
        simp only [List.flatMap_cons, List.count_append] at h₁ h₂ ⊢
        omega

/-- **A plan that settles what a Service wants is carried out, and the Service
owns it then.** -/
theorem execute_gives {hosts : List Hosting} (hs : s.site.Sound)
    (hkey : key.Valid) (hwanted : Wanted key desired)
    (hform : Plan.WellFormed key desired s.site.rules plan)
    (hsettles : Plan.Settles key s.site.rules hosts plan)
    (hhosts : hosts.map Prod.fst = desired) :
    Gives (fun r t => r = .ok () ∧ Works key desired s t ∧
      Converged key desired t.site.rules) (Plan.execute plan).run s := by
  refine (executeAfter_gives hs hform.grounded _ []).imp ?_
  rintro r t ⟨hr, hcarried⟩
  refine ⟨hr, ⟨hcarried.sound, hcarried.services,
    fun port k h => Or.inl (hcarried.holders port k h),
    fun p hp => hcarried.rest p fun op hop => hform.spares hkey hwanted hp hop⟩,
      ?_⟩
  exact hsettles.converged_of_balance hkey hwanted hs.ids_nodup hhosts hcarried.balance

/-! ## Reservations -/

def Free (key : ServiceKey) (desired : List DesiredRule) (s : Scene) : Prop :=
  ∀ port ∈ Desired.externalPorts desired, ∀ k, s.site.holder? port = some k → k = key

theorem Free.of_works (h : Free key desired s) (hworks : Works key desired s t) :
    Free key desired t := by
  intro port hport k hholder
  rcases hworks.holders port k hholder with hheld | ⟨rfl, -⟩
  · exact h port hport k hheld
  · rfl

/-- What a Service wants is worked out, and reserved where nobody else has. -/
theorem claimDesired_silent {view : ServiceView} {defaults : RuleDefaults}
    (hs : s.site.Sound) (hrules : Desired.rulesFor view defaults = .ok desired)
    (hfree : Free view.key desired s) :
    Silent (fun r t => r = .ok desired ∧ t.site.rules = s.site.rules ∧
      Works view.key desired s t)
      (Reconcile.claimDesired view defaults).run s := by
  unfold Reconcile.claimDesired
  simp only [hrules]
  refine (memory_silent _ s).andThen ?_
  rintro reply t ⟨now, hreply, rfl⟩
  obtain ⟨claimed, hclaimed⟩ := Reservations.exists_claim hfree
  have hanswer :
      MemoryCall.answer now s.site.memory
        (.claim view.key (Desired.externalPorts desired)) =
        (.ok (), { s.site.memory with reservations := claimed }) := by
    simp only [MemoryCall.answer, hclaimed]
  rw [hanswer] at hreply ⊢
  subst hreply
  refine ensures_done ⟨rfl, rfl, hs.of_sublist (List.Sublist.refl _) rfl, rfl,
    fun port k hholder => ?_, fun _ _ => rfl⟩
  change claimed.holder? port = some k at hholder
  rw [(Reservations.holder?_of_claim hclaimed).2] at hholder
  split at hholder
  · next hport => exact Or.inr ⟨(Option.some.inj hholder).symm, hport⟩
  · exact Or.inl hholder

end Scene

end PortForwarding
