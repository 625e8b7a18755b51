import Mathlib.Logic.Function.Basic
import PortForwarding.Proofs.Pass.Asks
import PortForwarding.Proofs.Plan.Territory
import PortForwarding.Proofs.Script.Interleaved
import PortForwarding.Proofs.Site

/-!
# A router that two agents write to

Passes after events and the pass against drift share the router, the memory and
the locks. `Shared.May` are the rules by which these answer either of them as long
as nothing fails.

One Service has a territory: the slots on which it owns or wants rules, and no
other Service that is looked after does. `Territory.Rely` is what an agent can
count on while the other one acts: nobody writes to the territory but under the
lock of the Service, and to the other slots nobody but the pass against drift.
`Territory.Keeps` are the scripts that do their part, and whoever is alone on some
slots (`Alone`) can carry a plan out there to its end (`execute_keeps`).
-/

namespace PortForwarding

open Listing Script

/-- Who acts: the passes after events, or the pass against drift. -/
inductive Agent where
  | event
  | periodic
  deriving DecidableEq, Repr

def Agent.other : Agent → Agent
  | .event => .periodic
  | .periodic => .event

theorem Agent.other_ne (me : Agent) : me.other ≠ me := by
  cases me <;> decide

/-- What both agents reach. -/
structure Shared where
  site : Site
  /-- Who has the lock of a Service. -/
  holder : ServiceKey → Option Agent
  /-- Who had the lock of a Service last, or has it. -/
  last : ServiceKey → Option Agent

namespace Shared

/-- Nothing fails and no signal to stop is given. A rule that is not there is not
known, and the Services are listed as they are in `listed`. -/
def Smooth (listed : List ServiceObject) (s : Site) : (r : Request) → r.Reply → Prop
  | .router .list, .error _ | .router (.add _), .error _
  | .router .ready, .error _ => False
  | .router (.update id _), .error e => e = .notFound id ∧ id ∉ ids s.rules
  | .router (.remove id), .error e => e = .notFound id ∧ id ∉ ids s.rules
  | .store .list, reply => reply = .ok listed
  | .store (.get _), .error _ | .store (.patch _ _), .error _ => False
  | .cancelled, seen => seen = false
  | _, _ => True

/-- What may be answered to one of the agents, and how things are then. A lock is
given to nobody while somebody has it. -/
def May (listed : List ServiceObject) (me : Agent) :
    Possible Shared := fun s request reply t =>
  match request, reply with
  | .lock key, _ =>
    s.holder key = none ∧ t = { s with
      holder := Function.update s.holder key (some me)
      last := Function.update s.last key (some me) }
  | .unlock key, _ => t = { s with holder := Function.update s.holder key none }
  | request, reply => Smooth listed s.site request reply ∧
    Site.May False s.site request reply t.site ∧ t.holder = s.holder ∧ t.last = s.last

/-- The second state has the same rules and locks. -/
structure Still (s t : Shared) : Prop where
  rules : t.site.rules = s.site.rules
  issued : t.site.issued = s.site.issued
  holder : t.holder = s.holder
  last : t.last = s.last

def Quiet : Request → Prop
  | .router (.add _) | .router (.update _ _) | .router (.remove _)
  | .lock _ | .unlock _ => False
  | _ => True

variable {listed : List ServiceObject} {me : Agent} {s t u : Shared}

theorem Quiet.still {r : Request} {reply : r.Reply} (hr : Quiet r)
    (h : May listed me s r reply t) : Still s t := by
  cases r with
  | router call =>
      obtain ⟨hsmooth, hsite, hholder, hlast⟩ := h
      cases call with
      | list =>
          obtain ⟨hsame, -⟩ := Site.may_list hsite
          exact ⟨by rw [hsame], by rw [hsame], hholder, hlast⟩
      | add _ | update _ _ | remove _ => exact hr.elim
      | ready =>
          have hsame : t.site = s.site := hsite
          exact ⟨by rw [hsame], by rw [hsame], hholder, hlast⟩
  | memory call =>
      obtain ⟨-, ⟨now, -, hsite⟩, hholder, hlast⟩ := h
      exact ⟨by rw [hsite], by rw [hsite], hholder, hlast⟩
  | cancelled =>
      obtain ⟨-, hsite, hholder, hlast⟩ := h
      have hsite : t.site = { s.site with stopped := s.site.stopped || reply } := hsite
      exact ⟨by rw [hsite], by rw [hsite], hholder, hlast⟩
  | store _ | publish _ _ | now =>
      obtain ⟨-, hsite, hholder, hlast⟩ := h
      have hsame : t.site = s.site := hsite
      exact ⟨by rw [hsame], by rw [hsame], hholder, hlast⟩
  | lock _ | unlock _ => exact hr.elim

end Shared

/-! ## Territories -/

/-- The slots of one Service, and the Services to which all others belong. -/
structure Territory where
  key : ServiceKey
  zone : Slot → Bool
  others : List ServiceKey
  key_notMem : key ∉ others

namespace Territory

open Shared

variable {T : Territory} {listed : List ServiceObject} {me : Agent} {s t u : Shared}

/-- A rule with these settings is on its owner's side. -/
structure Fits (T : Territory) (spec : RuleSpec) : Prop where
  own : spec.isOwnedBy T.key = true → T.zone spec.slot = true
  others : ∀ other ∈ T.others, spec.isOwnedBy other = true → T.zone spec.slot = false

/-- All rules are on their owners' sides, and under identifiers of their own. -/
structure Orderly (T : Territory) (s : Shared) : Prop where
  sound : s.site.Sound
  fits : ∀ r ∈ s.site.rules, T.Fits r.spec

/-- What an agent has left of the territory, with the lock, is still there. -/
structure Spares (T : Territory) (me : Agent) (s t : Shared) : Prop where
  orderly : T.Orderly s → T.Orderly t
  kept : t.last T.key = some me → s.last T.key = some me ∧
    within T.zone t.site.rules = within T.zone s.site.rules
  known : s.last T.key ≠ none → t.last T.key ≠ none

theorem Spares.refl (s : Shared) : T.Spares me s s :=
  ⟨id, fun h => ⟨h, rfl⟩, id⟩

theorem Spares.trans (h : T.Spares me s t) (h' : T.Spares me t u) :
    T.Spares me s u := by
  refine ⟨fun hs => h'.orderly (h.orderly hs), fun hkept => ?_, fun hs =>
    h'.known (h.known hs)⟩
  obtain ⟨hlast', hrules'⟩ := h'.kept hkept
  obtain ⟨hlast, hrules⟩ := h.kept hlast'
  exact ⟨hlast, hrules'.trans hrules⟩

/-- **What an agent can count on while the other acts.** -/
structure Rely (T : Territory) (me : Agent) (s t : Shared) :
    Prop extends T.Spares me s t where
  /-- Under the lock it is alone on the territory. -/
  held : s.holder T.key = some me → t.holder T.key = some me ∧
    t.last T.key = s.last T.key ∧
    within T.zone t.site.rules = within T.zone s.site.rules
  /-- Passes after events for the Service keep to the territory. -/
  outside : me = .periodic →
    within (outside T.zone) t.site.rules = within (outside T.zone) s.site.rules

theorem Rely.refl (s : Shared) : T.Rely me s s :=
  ⟨.refl s, fun h => ⟨h, rfl, rfl⟩, fun _ => rfl⟩

theorem Rely.trans (h : T.Rely me s t) (h' : T.Rely me t u) : T.Rely me s u := by
  refine ⟨h.toSpares.trans h'.toSpares, fun hheld => ?_, fun hme => ?_⟩
  · obtain ⟨hholder, hlast, hrules⟩ := h.held hheld
    obtain ⟨hholder', hlast', hrules'⟩ := h'.held hholder
    exact ⟨hholder', hlast'.trans hlast, hrules'.trans hrules⟩
  · exact (h'.outside hme).trans (h.outside hme)

theorem rely_of_still (h : Still s t) : T.Rely me s t := by
  refine ⟨⟨fun hs => ?_, fun hkept => ?_, ?_⟩, fun hheld => ?_, fun _ => ?_⟩
  · refine ⟨hs.sound.of_sublist (by rw [h.rules]) h.issued, ?_⟩
    rw [h.rules]
    exact hs.fits
  · rw [h.rules]
    rw [h.last] at hkept
    exact ⟨hkept, rfl⟩
  · rw [h.last]
    exact id
  · rw [h.holder, h.last, h.rules]
    exact ⟨hheld, rfl, rfl⟩
  · rw [h.rules]

/-- The script of one agent does nothing but what the other relies on, and relies
on the same; `post` holds at its end. -/
abbrev Keeps {α : Type} (T : Territory) (listed : List ServiceObject) (me : Agent)
    (post : α → Shared → Prop) (script : Script α) (s : Shared) : Prop :=
  Ensures (May listed me) (T.Rely me) (fun s _ t => T.Rely me.other s t) post script s

variable {α β : Type}

theorem quiet_keeps {script : Script α} (hasks : Asks Quiet script) (s : Shared) :
    T.Keeps listed me (fun _ t => T.Rely me s t) script s := by
  refine hasks.ensures (P := fun t => T.Rely me s t) (fun h h' => h.trans h')
    (fun hquiet hs hmay => ?_) (Rely.refl s)
  have hstill := hquiet.still hmay
  exact ⟨rely_of_still hstill, hs.trans (rely_of_still hstill)⟩

/-- A script that changes no rule and takes no lock, and then the rest. -/
theorem quiet_andThen {script : Script α} {f : α → Script β}
    {post : β → Shared → Prop} (hasks : Asks Quiet script)
    (hf : ∀ a t, T.Rely me s t → T.Keeps listed me post (f a) t) :
    T.Keeps listed me post (script.bind f) s :=
  (quiet_keeps hasks s).andThen hf

theorem listRules_keeps (s : Shared) :
    T.Keeps listed me (fun r t => r = .ok t.site.rules ∧ T.Rely me s t)
      listRules.run s := by
  refine ensures_request (r := .router .list) fun s' hrely reply t hmay => ?_
  obtain ⟨hsmooth, hsite, hholder, hlast⟩ := hmay
  obtain ⟨hsame, hreply⟩ := Site.may_list hsite
  have hstill : Still s' t := ⟨by rw [hsame], by rw [hsame], hholder, hlast⟩
  refine ⟨rely_of_still hstill, ?_, hrely.trans (rely_of_still hstill)⟩
  rcases hreply with hreply | ⟨e, rfl⟩
  · rw [hreply, hsame]
  · exact hsmooth.elim

/-! ## Locks -/

structure Inside (T : Territory) (me : Agent) (s : Shared) : Prop where
  orderly : T.Orderly s
  held : s.holder T.key = some me
  last : s.last T.key = some me

/-- **Under the lock the territory does not change by others.** -/
theorem Inside.rely (h : T.Inside me s) (hrely : T.Rely me s t) :
    T.Inside me t ∧ within T.zone t.site.rules = within T.zone s.site.rules := by
  obtain ⟨hheld, hlast, hrules⟩ := hrely.held h.held
  exact ⟨⟨hrely.orderly h.orderly, hheld, hlast.trans h.last⟩, hrules⟩

theorem lock_keeps (hs : T.Orderly s) :
    T.Keeps listed me (fun _ t => T.Inside me t) (request (.lock T.key)) s := by
  refine ensures_request fun s' hrely reply t hmay => ?_
  obtain ⟨hfree, rfl⟩ := hmay
  have horderly := hrely.orderly hs
  refine ⟨⟨⟨fun h => ⟨h.sound, h.fits⟩, fun hkept => ?_, fun _ => by simp⟩,
    fun hheld => ?_, fun _ => rfl⟩,
    ⟨⟨horderly.sound, horderly.fits⟩, by simp, by simp⟩⟩
  · have hme : some me = some me.other := by simpa using hkept
    exact absurd (Option.some.inj hme).symm me.other_ne
  · exact absurd (hfree.symm.trans hheld) (by simp)

theorem unlock_keeps (hs : T.Inside me s) :
    T.Keeps listed me (fun _ t => T.Orderly t ∧ t.last T.key = some me ∧
      within T.zone t.site.rules = within T.zone s.site.rules)
        (request (.unlock T.key)) s := by
  refine ensures_request fun s' hrely reply t hmay => ?_
  obtain rfl : t = _ := hmay
  obtain ⟨hinside, hrules⟩ := hs.rely hrely
  have horderly := hinside.orderly
  refine ⟨⟨⟨fun h => ⟨h.sound, h.fits⟩, fun hkept => ⟨hkept, rfl⟩, id⟩, fun hother => ?_,
    fun _ => rfl⟩, ⟨horderly.sound, horderly.fits⟩, hinside.last, hrules⟩
  exact absurd (Option.some.inj (hinside.held.symm.trans hother)).symm me.other_ne

theorem otherLock_keeps {key : ServiceKey} {r : Request}
    (hr : r = .lock key ∨ r = .unlock key) (hkey : key ≠ T.key) (s : Shared) :
    T.Keeps listed me (fun _ t => T.Rely me s t) (request r) s := by
  have hne : T.key ≠ key := Ne.symm hkey
  have hsame : ∀ {who : Agent} {s t : Shared}, t.site = s.site →
      t.holder T.key = s.holder T.key → t.last T.key = s.last T.key → T.Rely who s t := by
    intro who s t hsite hholder hlast
    refine ⟨⟨fun h => ?_, fun h => ?_, fun h => ?_⟩, fun h => ?_, fun _ => ?_⟩
    · exact ⟨hsite ▸ h.sound, hsite ▸ h.fits⟩
    · exact ⟨hlast.symm.trans h, by rw [hsite]⟩
    · rwa [hlast]
    · exact ⟨hholder.trans h, hlast, by rw [hsite]⟩
    · rw [hsite]
  refine ensures_request fun s' hrely reply t hmay => ?_
  rcases hr with rfl | rfl
  · obtain ⟨-, rfl⟩ := hmay
    have hholder := Function.update_of_ne hne (some me) s'.holder
    have hlast := Function.update_of_ne hne (some me) s'.last
    exact ⟨hsame rfl hholder hlast, hrely.trans (hsame rfl hholder hlast)⟩
  · obtain rfl : t = _ := hmay
    have hholder := Function.update_of_ne hne none s'.holder
    exact ⟨hsame rfl hholder rfl, hrely.trans (hsame rfl hholder rfl)⟩

/-! ## Writing -/

/-- The agent is alone on these slots: on the territory under the lock, elsewhere
as the pass against drift. -/
inductive Alone (T : Territory) (me : Agent) : (Slot → Bool) → Shared → Prop
  | inside {s : Shared} (inside : T.Inside me s) : Alone T me T.zone s
  | outside {s : Shared} (orderly : T.Orderly s) (periodic : me = .periodic) :
      Alone T me (outside T.zone) s

variable {side : Slot → Bool} {op : Operation} {plan : List Operation} {id : String}

theorem Alone.orderly (h : T.Alone me side s) : T.Orderly s := by
  cases h with
  | inside h => exact h.orderly
  | outside h => exact h

theorem Alone.rely (h : T.Alone me side s) (hrely : T.Rely me s t) :
    T.Alone me side t ∧ within side t.site.rules = within side s.site.rules := by
  cases h with
  | inside h =>
      obtain ⟨hinside, hrules⟩ := h.rely hrely
      exact ⟨.inside hinside, hrules⟩
  | outside horderly hme =>
      exact ⟨.outside (hrely.orderly horderly) hme, hrely.outside hme⟩

/-- Between the two states an operation was carried out on these slots. -/
structure Wrote (T : Territory) (side : Slot → Bool) (s t : Shared) : Prop where
  orderly : T.Orderly t
  rest : within (outside side) t.site.rules = within (outside side) s.site.rules
  holder : t.holder = s.holder
  last : t.last = s.last

/-- **To write where one is alone is what the other relies on.** -/
theorem Alone.wrote (h : T.Alone me side s) (hwrote : T.Wrote side s t) :
    T.Alone me side t ∧ T.Rely me.other s t := by
  have hknown : s.last T.key ≠ none → t.last T.key ≠ none := by
    rw [hwrote.last]
    exact id
  cases h with
  | inside h =>
      refine ⟨.inside ⟨hwrote.orderly, ?_, ?_⟩,
        ⟨⟨fun _ => hwrote.orderly, fun hkept => ?_, hknown⟩,
        fun hheld => ?_, fun _ => hwrote.rest⟩⟩
      · rw [hwrote.holder]
        exact h.held
      · rw [hwrote.last]
        exact h.last
      · rw [hwrote.last] at hkept
        exact absurd (Option.some.inj (h.last.symm.trans hkept)).symm me.other_ne
      · exact absurd (Option.some.inj (h.held.symm.trans hheld)).symm me.other_ne
  | outside horderly hme =>
      have hrules := hwrote.rest
      rw [outside_outside] at hrules
      refine ⟨.outside hwrote.orderly hme,
        ⟨⟨fun _ => hwrote.orderly, fun hkept => ?_, hknown⟩,
        fun hheld => ?_, fun hother => ?_⟩⟩
      · rw [hwrote.last] at hkept
        exact ⟨hkept, hrules⟩
      · rw [hwrote.holder, hwrote.last]
        exact ⟨hheld, rfl, hrules⟩
      · rw [hme] at hother
        exact absurd hother (by decide)

/-- What the pass against drift writes elsewhere leaves the territory as it is. -/
theorem Wrote.spares (h : T.Wrote (outside T.zone) s t) : T.Spares me s t := by
  have hrules := h.rest
  rw [outside_outside] at hrules
  refine ⟨fun _ => h.orderly, fun hkept => ?_, ?_⟩
  · rw [h.last] at hkept
    exact ⟨hkept, hrules⟩
  · rw [h.last]
    exact id

/-- The operation belongs on these slots: it addresses a rule there, and what it
brings is to be there. -/
structure Belongs (T : Territory) (side : Slot → Bool) (rules : List RouterRule)
    (op : Operation) : Prop where
  grounded : op.IsGrounded (within side rules)
  slot : op.kind ≠ .delete → side op.rule.slot = true
  fits : op.kind ≠ .delete → T.Fits op.rule.spec

theorem fits_of_mem_apply {rules : List RouterRule} {r : RouterRule}
    (hrules : ∀ r ∈ rules, T.Fits r.spec)
    (hop : op.kind ≠ .delete → T.Fits op.rule.spec) (hr : r ∈ op.apply id rules) :
    T.Fits r.spec := by
  unfold Operation.apply at hr
  split at hr
  · next hk =>
      rcases List.mem_append.mp hr with hr | hr
      · exact hrules r hr
      · obtain rfl := List.mem_singleton.mp hr
        exact hop (by simp [hk])
  · next e hk _ =>
      obtain ⟨r', hr', rfl⟩ := List.mem_map.mp hr
      split
      · exact hop (by simp [hk])
      · exact hrules r' hr'
  · exact hrules r (List.mem_filter.mp hr).1
  · exact hrules r hr

theorem Belongs.wrote (h : T.Belongs side s.site.rules op) (hs : T.Orderly s)
    (hrules : t.site.rules = op.apply id s.site.rules) (hsound : t.site.Sound)
    (hholder : t.holder = s.holder) (hlast : t.last = s.last) :
    T.Wrote side s t ∧ within side t.site.rules =
      op.apply id (within side s.site.rules) := by
  have hnd := hs.sound.ids_nodup
  refine ⟨⟨⟨hsound, fun r hr => ?_⟩, ?_, hholder, hlast⟩, ?_⟩
  · rw [hrules] at hr
    exact fits_of_mem_apply hs.fits h.fits hr
  · rw [hrules]
    exact within_outside_apply hnd h.grounded h.slot
  · rw [hrules]
    exact within_apply hnd h.grounded h.slot

theorem Alone.applied (h : T.Alone me side s) (hop : T.Belongs side s.site.rules op)
    (hrules : t.site.rules = op.apply id s.site.rules) (hsound : t.site.Sound)
    (hholder : t.holder = s.holder) (hlast : t.last = s.last) :
    T.Rely me.other s t ∧ T.Wrote side s t ∧ T.Alone me side t ∧
      within side t.site.rules = op.apply id (within side s.site.rules) := by
  obtain ⟨hwrote, hwithin⟩ := hop.wrote h.orderly hrules hsound hholder hlast
  obtain ⟨halone, hrely⟩ := h.wrote hwrote
  exact ⟨hrely, hwrote, halone, hwithin⟩

variable {P : Shared → Prop}

/-- Neither the acts of others nor what is done on these slots make an end
of `P`. -/
structure Bears (T : Territory) (me : Agent) (side : Slot → Bool)
    (P : Shared → Prop) :
    Prop where
  rely : ∀ {s t}, P s → T.Rely me s t → P t
  wrote : ∀ {s t}, P s → T.Wrote side s t → P t

theorem bears_inside : T.Bears me T.zone (T.Inside me) := by
  refine ⟨fun hs hrely => (hs.rely hrely).1, fun {s t} hs hwrote =>
    ⟨hwrote.orderly, ?_, ?_⟩⟩
  · rw [hwrote.holder]
    exact hs.held
  · rw [hwrote.last]
    exact hs.last

theorem removeRule_keeps {e : RouterRule} (hP : T.Bears me side P) (hs : P s)
    (halone : T.Alone me side s) (he : e ∈ within side s.site.rules) :
    T.Keeps listed me (fun r t => r = .ok () ∧ P t ∧ T.Alone me side t ∧
      within side t.site.rules = without e.id (within side s.site.rules))
      (removeRule e.id).run s := by
  refine ensures_request (r := .router (.remove e.id)) fun s' hrely reply t hmay => ?_
  -- others may act before the request, but not on these slots
  obtain ⟨halone', hsame⟩ := halone.rely hrely
  obtain ⟨hsmooth, hsite, hholder, hlast⟩ := hmay
  have hsound := halone'.orderly.sound.step hsite
  rw [← hsame] at he
  let op : Operation := .delete default e .driftExtra
  have hop : T.Belongs side s'.site.rules op :=
    ⟨fun _ => ⟨e, he, rfl⟩, fun hk => absurd rfl hk, fun hk => absurd rfl hk⟩
  rcases Site.may_remove hsite with ⟨rfl, -, ht⟩ | ⟨err, rfl, -, -⟩
  · have hrules : t.site.rules = op.apply e.id s'.site.rules := by
      rw [ht, Operation.apply_of_delete rfl rfl]
    obtain ⟨hother, hwrote, halone, hwithin⟩ :=
      halone'.applied hop hrules hsound hholder hlast
    rw [hsame, Operation.apply_of_delete rfl rfl] at hwithin
    exact ⟨hother, rfl, hP.wrote (hP.rely hs hrely) hwrote, halone, hwithin⟩
  · exact absurd (mem_ids_of_mem (mem_within.mp he).1) hsmooth.2

/-- **One operation is carried out** where the agent is alone, and only there. -/
theorem attempt_keeps (hP : T.Bears me side P) (hs : P s) (halone : T.Alone me side s)
    (hop : T.Belongs side s.site.rules op) :
    T.Keeps listed me (fun r t => (∃ rule, r = .ok rule) ∧ P t ∧ T.Alone me side t ∧
      ∃ id, within side t.site.rules = op.apply id (within side s.site.rules))
      (Plan.attempt op).run s := by
  -- others may act before the request, but not on these slots
  have hmoved : ∀ {s'}, T.Rely me s s' → T.Alone me side s' ∧
      within side s'.site.rules = within side s.site.rules ∧
      T.Belongs side s'.site.rules op := by
    intro s' hrely
    obtain ⟨halone', hsame⟩ := halone.rely hrely
    exact ⟨halone', hsame, by rw [hsame]; exact hop.grounded, hop.slot, hop.fits⟩
  rcases hop.grounded.cases with hk | ⟨e, he, hex, hk | hk⟩
  · have hattempt : Plan.attempt op = addRule op.rule.spec := by
      simp only [Plan.attempt, hk]
    rw [hattempt]
    refine ensures_request (r := .router (.add op.rule.spec))
      fun s' hrely reply t hmay => ?_
    obtain ⟨halone', hsame, hop'⟩ := hmoved hrely
    obtain ⟨hsmooth, hsite, hholder, hlast⟩ := hmay
    have hsound := halone'.orderly.sound.step hsite
    rcases Site.may_add hsite with ⟨rule, rfl, hspec, -, ht⟩ | ⟨e, rfl, -⟩
    · have hrules : t.site.rules = op.apply rule.id s'.site.rules := by
        rw [ht, Operation.apply_of_create hk, ← hspec]
      obtain ⟨hother, hwrote, halone, hwithin⟩ :=
        halone'.applied hop' hrules hsound hholder hlast
      rw [hsame] at hwithin
      exact ⟨hother, ⟨rule, rfl⟩, hP.wrote (hP.rely hs hrely) hwrote, halone,
        rule.id, hwithin⟩
    · exact hsmooth.elim
  · have hattempt : Plan.attempt op = updateRule e.id op.rule.spec := by
      simp only [Plan.attempt, hk, hex]
    rw [hattempt]
    refine ensures_request (r := .router (.update e.id op.rule.spec))
      fun s' hrely reply t hmay => ?_
    obtain ⟨halone', hsame, hop'⟩ := hmoved hrely
    obtain ⟨hsmooth, hsite, hholder, hlast⟩ := hmay
    have hsound := halone'.orderly.sound.step hsite
    rcases Site.may_update hsite with ⟨rfl, -, ht⟩ | ⟨err, rfl, -, -⟩
    · have hrules : t.site.rules = op.apply e.id s'.site.rules := by
        rw [ht, Operation.apply_of_update hk hex]
      obtain ⟨hother, hwrote, halone, hwithin⟩ :=
        halone'.applied hop' hrules hsound hholder hlast
      rw [hsame] at hwithin
      exact ⟨hother, ⟨_, rfl⟩, hP.wrote (hP.rely hs hrely) hwrote, halone, e.id, hwithin⟩
    · rw [← hsame] at he
      exact absurd (mem_ids_of_mem (mem_within.mp he).1) hsmooth.2
  · have hattempt : Plan.attempt op = (do removeRule e.id; return e) := by
      simp only [Plan.attempt, hk, hex]
    rw [hattempt]
    refine (removeRule_keeps hP hs halone he).andThenTry ?_ ?_
    · rintro u t ⟨-, ht, halone, hwithin⟩
      refine ensures_done ⟨⟨e, rfl⟩, ht, halone, e.id, ?_⟩
      rw [hwithin, Operation.apply_of_delete hk hex]
    · rintro err t ⟨heq, -⟩
      exact absurd heq (by simp)

theorem isCancelled_keeps (s : Shared) :
    T.Keeps listed me (fun seen t => seen = false ∧ T.Rely me s t) isCancelled s := by
  refine ensures_request (r := .cancelled) fun s' hrely reply t hmay => ?_
  have hstill : Still s' t := Quiet.still (r := .cancelled) trivial hmay
  exact ⟨rely_of_still hstill, hmay.1, hrely.trans (rely_of_still hstill)⟩

/-- **A plan is carried out to its end** where the agent is alone: nothing is
refused, and the balance of these slots is met. -/
theorem executeAfter_keeps (hP : T.Bears me side P) (hs : P s)
    (halone : T.Alone me side s)
    (hplan : Plan.Grounded (within side s.site.rules) plan)
    (hbelongs : ∀ op ∈ plan, op.kind ≠ .delete → side op.rule.slot = true ∧
      T.Fits op.rule.spec) (needed : List UInt16) (done : List Completed) :
    T.Keeps listed me (fun r t => r = .ok () ∧ P t ∧ T.Alone me side t ∧
      (specs (within side t.site.rules) ++ plan.flatMap Operation.taken).Perm
        (specs (within side s.site.rules) ++ plan.flatMap Operation.given))
      (Plan.executeAfter needed done plan).run s := by
  -- over the plan: each operation moves on what is grounded and what is balanced
  induction plan generalizing s done with
  | nil => exact ensures_done ⟨rfl, hs, halone, List.Perm.refl _⟩
  | cons op plan ih =>
      refine (isCancelled_keeps s).andThen fun seen s₁ hseen => ?_
      obtain ⟨rfl, hrely₁⟩ := hseen
      obtain ⟨halone₁, hsame₁⟩ := halone.rely hrely₁
      rw [← hsame₁] at hplan
      have hop : T.Belongs side s₁.site.rules op :=
        ⟨hplan.each op List.mem_cons_self,
          fun hk => (hbelongs op List.mem_cons_self hk).1,
          fun hk => (hbelongs op List.mem_cons_self hk).2⟩
      refine (attempt_keeps hP (hP.rely hs hrely₁) halone₁ hop).andThen
        fun r s₂ hdone => ?_
      obtain ⟨⟨rule, rfl⟩, hs₂, halone₂, id, hwithin⟩ := hdone
      have hreleases : Asks Quiet (Plan.releaseUnused needed op) :=
        Plan.asks_releaseUnused needed op fun _ _ => trivial
      refine quiet_andThen hreleases fun released s₃ hrely₃ => ?_
      obtain ⟨halone₃, hsame₃⟩ := halone₂.rely hrely₃
      have hrules : within side s₃.site.rules = op.apply id (within side s₁.site.rules) :=
        hsame₃.trans hwithin
      have htail : Plan.Grounded (within side s₃.site.rules) plan := by
        rw [hrules]
        exact hplan.tail
      refine (ih (hP.rely hs₂ hrely₃) halone₃ htail
        (fun o ho => hbelongs o (List.mem_cons_of_mem _ ho)) _).imp ?_
      rintro r t ⟨hr, ht, halone, hbalance⟩
      refine ⟨hr, ht, halone, ?_⟩
      have hhead := Operation.specs_apply_perm id (ids_within_nodup
        halone₁.orderly.sound.ids_nodup) hop.grounded
      rw [hrules] at hbalance
      rw [hsame₁] at hhead hbalance
      rw [List.perm_iff_count] at hhead hbalance ⊢
      intro c
      have h₁ := hhead c
      have h₂ := hbalance c
      simp only [List.flatMap_cons, List.count_append] at h₁ h₂ ⊢
      omega

end Territory

end PortForwarding
