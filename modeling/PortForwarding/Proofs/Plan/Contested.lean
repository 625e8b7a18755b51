import PortForwarding.Proofs.Pass.Asks
import PortForwarding.Proofs.Plan.Execution
import PortForwarding.Proofs.Script.Amid

/-!
# Ports that do not come back

A deletion gives its port back in the middle of a plan, and only when the plan is
undone is the port claimed again. The passes of other Services do not wait for
that. Whoever claims the port in between gets it, and the claim of the Service
that is undoing its plan is then refused, of which nobody is told.

So of the ports that a Service had before a plan that was undone, it has those
again that no other Service was granted meanwhile, and no others
(`undone_holders`). The rule on such a port is restored nevertheless.
-/

namespace PortForwarding

open Script

/-! ## A site with rivals -/

def Site.reserving (r : Reservations) (s : Site) : Site :=
  { s with memory := { s.memory with reservations := r } }

/-- A site, and the ports that other Services were granted there. -/
structure Contested where
  site : Site
  granted : List UInt16

namespace Contested

/-- Other Services have claimed ports, one after another. A claim that is refused
changes nothing. -/
inductive Rivals (key : ServiceKey) (s : Contested) : Contested → Prop where
  | none : Rivals key s s
  | claim {t : Contested} {other : ServiceKey} {ports : List UInt16} {r : Reservations}
      (earlier : Rivals key s t) (hother : other ≠ key)
      (hclaim : t.site.memory.reservations.claim other ports = .ok r) :
      Rivals key s ⟨t.site.reserving r, ports ++ t.granted⟩

def Answers : Possible Contested := fun s request reply t =>
  Site.May True s.site request reply t.site ∧ t.granted = s.granted

/-- **Any call may be answered after rivals have claimed ports.** -/
def May (key : ServiceKey) : Possible Contested :=
  Amid (Rivals key) Answers

/-! ## One port of the Service -/

variable {key : ServiceKey} {p : UInt16} {all rest done : List Completed}
  {c : Completed} {op : Operation} {s t u : Contested}

/-- **What has become of a port that the Service had**, after the operations
`all`, of which `rest` have still to be undone. -/
inductive Stands (key : ServiceKey) (p : UInt16) (all rest : List Completed)
    (s : Contested) :
    Prop where
  /-- The Service has it. -/
  | held (hholder : s.site.holder? p = some key) (hfree : p ∉ s.granted)
  /-- An operation gave it back that may have to be undone. -/
  | vacant (hholder : s.site.holder? p = none) (hfree : p ∉ s.granted)
      (hgiven : ∃ c ∈ all, c.released = some p) (hleft : ∃ c ∈ rest, c.released = some p)
  /-- An operation gave it back, and another Service has it. -/
  | lost {other : ServiceKey} (hother : other ≠ key)
      (hholder : s.site.holder? p = some other)
      (hgranted : p ∈ s.granted) (hgiven : ∃ c ∈ all, c.released = some p)

namespace Stands

theorem rivals (h : Stands key p all rest s) (hrivals : Rivals key s t) :
    Stands key p all rest t := by
  induction hrivals with
  | none => exact h
  | @claim t other ports r earlier hother hclaim ih =>
      obtain ⟨hown, hafter⟩ := Reservations.holder?_of_claim hclaim
      have hholder : ∀ k, (if p ∈ ports then some other else t.site.holder? p) = k →
          Site.holder? (t.site.reserving r) p = k := by
        intro k hk
        exact (hafter p).trans hk
      by_cases hp : p ∈ ports
      · rcases ih with ⟨hheld, -⟩ | ⟨-, -, hgiven, -⟩ | ⟨-, -, -, hgiven⟩
        · exact absurd (hown p hp key hheld).symm hother
        · exact .lost hother (hholder _ (if_pos hp)) (List.mem_append_left _ hp) hgiven
        · exact .lost hother (hholder _ (if_pos hp)) (List.mem_append_left _ hp) hgiven
      · have hnot : p ∉ t.granted → p ∉ ports ++ t.granted := fun hfree hmem =>
          (List.mem_append.mp hmem).elim hp hfree
        rcases ih with ⟨hheld, hfree⟩ | ⟨hnone, hfree, hgiven, hleft⟩ |
          ⟨hk, htaken, hgranted, hgiven⟩
        · exact .held (hholder _ ((if_neg hp).trans hheld)) (hnot hfree)
        · exact .vacant (hholder _ ((if_neg hp).trans hnone)) (hnot hfree) hgiven hleft
        · exact .lost hk (hholder _ ((if_neg hp).trans htaken))
            (List.mem_append_right _ hgranted) hgiven

theorem congr (h : Stands key p all rest s)
    (hholder : t.site.holder? p = s.site.holder? p)
    (hgranted : t.granted = s.granted) : Stands key p all rest t := by
  rcases h with ⟨hheld, hfree⟩ | ⟨hnone, hfree, hgiven, hleft⟩ | ⟨hother,
    htaken, hmem, hgiven⟩
  · exact .held (hholder.trans hheld) (by rwa [hgranted])
  · exact .vacant (hholder.trans hnone) (by rwa [hgranted]) hgiven hleft
  · exact .lost hother (hholder.trans htaken) (by rwa [hgranted]) hgiven

theorem run {α : Type} {script : Script α} {a : α} (h : Stands key p all rest s)
    (hasks : Asks Site.KeepsReservations script)
    (hleads : Leads (May key) script s a t) : Stands key p all rest t := by
  refine hleads.preserves_of_asks (P := Stands key p all rest) hasks ?_ h
  rintro s r reply t hkeeps hs ⟨u, hrivals, hmay, hgranted⟩
  refine (hs.rivals hrivals).congr ?_ hgranted
  unfold Site.holder?
  rw [Site.KeepsReservations.step hkeeps hmay]

theorem widen (h : Stands key p all rest s) (c : Completed) :
    Stands key p (c :: all) (c :: rest) s := by
  have hlater : ∀ {cs : List Completed}, (∃ c ∈ cs, c.released = some p) →
      ∃ c' ∈ c :: cs, c'.released = some p := by
    rintro cs ⟨c', hc', hreleased⟩
    exact ⟨c', List.mem_cons_of_mem _ hc', hreleased⟩
  rcases h with ⟨hheld, hfree⟩ | ⟨hnone, hfree, hgiven, hleft⟩ | ⟨hother,
    htaken, hmem, hgiven⟩
  · exact .held hheld hfree
  · exact .vacant hnone hfree (hlater hgiven) (hlater hleft)
  · exact .lost hother htaken hmem (hlater hgiven)

/-- An operation needs no undoing that has not left the port to nobody. -/
theorem drop (h : Stands key p all (c :: rest) s)
    (hkept : c.released = some p → s.site.holder? p ≠ none) :
    Stands key p all rest s := by
  rcases h with ⟨hheld, hfree⟩ | ⟨hnone, hfree, hgiven, c', hc', hreleased⟩ |
    ⟨hother, htaken, hmem, hgiven⟩
  · exact .held hheld hfree
  · rcases List.mem_cons.mp hc' with rfl | hc'
    · exact absurd hnone (hkept hreleased)
    · exact .vacant hnone hfree hgiven ⟨c', hc', hreleased⟩
  · exact .lost hother htaken hmem hgiven

end Stands

/-! ## One operation -/

theorem asksOnce_releaseUnused (needed : List UInt16) (op : Operation) :
    AsksOnce (Plan.releaseUnused needed op) := by
  unfold Plan.releaseUnused
  split
  · exact trivial
  · intro held
    cases held with
    | true => exact ⟨some op.slot.external, rfl⟩
    | false => exact ⟨none, rfl⟩

theorem asksOnce_reclaim (c : Completed) : AsksOnce c.reclaim := by
  unfold Completed.reclaim
  cases c.released with
  | none => exact trivial
  | some port => exact fun reply => ⟨(), rfl⟩

theorem granted_of_answers {α : Type} {script : Script α} {a : α}
    (h : Leads Answers script s a t) : t.granted = s.granted :=
  h.preserves (P := fun u => u.granted = s.granted) (fun hu hmay => hmay.2.trans hu) rfl

/-- **The port is given back with an operation, or stays as it is.** -/
theorem Stands.release {needed : List UInt16} {released : Option UInt16}
    (applied : RouterRule) (h : Stands key p done done s)
    (hown : op.rule.owner.key = key)
    (hleads : Leads (May key) (Plan.releaseUnused needed op) s released t) :
    Stands key p (⟨op, applied, released⟩ :: done)
      (⟨op, applied, released⟩ :: done) t ∧
      (released = some p → op.kind = .delete ∧ op.slot.external = p) := by
  obtain ⟨u, hrivals, hanswers⟩ :=
    leads_of_amid (asksOnce_releaseUnused needed op) (fun _ => .none) hleads
  have hsite : Leads (Site.May True) (Plan.releaseUnused needed
      op) u.site released t.site :=
    hanswers.project Contested.site And.left
  obtain ⟨hnote, hafter, -⟩ := Plan.releaseUnused_leads hsite
  have hu := h.rivals hrivals
  have hgranted : t.granted = u.granted := granted_of_answers hanswers
  have hholders : ∀ q, t.site.holder? q =
      (Plan.giveBack needed u.site.memory.reservations op).holder? q := by
    intro q
    unfold Site.holder?
    rw [hafter]
  cases hreturned : Plan.returned? needed u.site.memory.reservations op with
  | none =>
      have halike := Plan.giveBack_of_returned?_none hreturned
      refine ⟨(hu.congr ((hholders p).trans (halike p)) hgranted).widen _, fun hp => ?_⟩
      exact absurd (hnote.symm.trans hp) (by simp [hreturned])
  | some port =>
      obtain ⟨hbefore, hgone⟩ := Plan.giveBack_of_returned?_some hreturned
      rw [hown] at hbefore
      rw [hreturned] at hnote
      by_cases hp : p = port
      · obtain rfl := hp
        have hnone : t.site.holder? p = none := by
          rw [hholders p, hgone p, if_pos rfl]
        have hfree : p ∉ u.granted := by
          rcases hu with ⟨-, hfree⟩ | ⟨hvacant, -, -, -⟩ | ⟨hother, htaken, -, -⟩
          · exact hfree
          · exact absurd (hvacant.symm.trans hbefore) (by simp)
          · exact absurd (Option.some.inj (htaken.symm.trans hbefore)) hother
        refine ⟨.vacant hnone (by rwa [hgranted]) ⟨_, List.mem_cons_self, hnote⟩
          ⟨_, List.mem_cons_self, hnote⟩, fun _ => ?_⟩
        exact Plan.returned?_eq_some hreturned
      · have hsame : t.site.holder? p = u.site.holder? p := by
          rw [hholders p, hgone p, if_neg hp]
          rfl
        refine ⟨(hu.congr hsame hgranted).widen _, fun hmine => ?_⟩
        exact absurd (Option.some.inj (hmine.symm.trans hnote)) hp

/-- **The port comes back with the operation that gave it back**, unless a rival
has it. -/
theorem Stands.reclaim {v : Unit} (h : Stands key p all (c :: rest) s)
    (hown : c.operation.rule.owner.key = key)
    (hleads : Leads (May key) c.reclaim s v t) : Stands key p all rest t := by
  obtain ⟨u, hrivals, hanswers⟩ :=
    leads_of_amid (asksOnce_reclaim c) (fun _ => .none) hleads
  have hu := h.rivals hrivals
  have hgranted : t.granted = u.granted := granted_of_answers hanswers
  unfold Completed.reclaim at hanswers
  cases hreleased : c.released with
  | none =>
      rw [hreleased] at hanswers
      obtain ⟨-, rfl⟩ := leads_done.mp hanswers
      exact hu.drop fun hp => absurd (hreleased.symm.trans hp) (by simp)
  | some port =>
      rw [hreleased] at hanswers
      obtain ⟨reply, s', hclaim, hrest⟩ := leads_bind.mp hanswers
      obtain ⟨-, rfl⟩ := leads_done.mp hrest
      obtain ⟨⟨now, -, ht⟩, -⟩ := leads_memory.mp hclaim
      rw [hown] at ht
      cases hresult : u.site.memory.reservations.claim key [port] with
      | ok r' =>
          obtain ⟨hmine, hafter⟩ := Reservations.holder?_of_claim hresult
          have hholder : t.site.holder? p =
              if p ∈ [port] then some key else u.site.holder? p := by
            rw [ht]
            simp only [MemoryCall.answer, hresult]
            exact hafter p
          by_cases hp : p ∈ [port]
          · rw [if_pos hp] at hholder
            rcases hu with ⟨-, hfree⟩ | ⟨-, hfree, -, -⟩ | ⟨hother, htaken, -, -⟩
            · exact .held hholder (by rwa [hgranted])
            · exact .held hholder (by rwa [hgranted])
            · exact absurd (hmine p hp _ htaken) hother
          · rw [if_neg hp] at hholder
            refine (hu.drop fun hgave => ?_).congr hholder hgranted
            exact absurd (Option.some.inj (hreleased.symm.trans hgave)).symm
              (fun heq => hp (List.mem_singleton.mpr heq))
      | error conflict =>
          have hholder : t.site.holder? p = u.site.holder? p := by
            rw [ht]
            simp only [MemoryCall.answer, hresult]
          refine (hu.drop fun hgave hnone => ?_).congr hholder hgranted
          -- a port that nobody has would have been granted
          obtain rfl := Option.some.inj (hreleased.symm.trans hgave)
          obtain ⟨r', hr'⟩ :
              ∃ r', u.site.memory.reservations.claim key [port] = .ok r' := by
            refine Reservations.exists_claim fun q hq k hk => ?_
            obtain rfl := List.mem_singleton.mp hq
            exact absurd (hnone.symm.trans hk) (by simp)
          exact absurd (hr'.symm.trans hresult) (by simp)

/-! ## A plan that is undone -/

variable {needed : List UInt16} {todo plan : List Operation} {halt : Halt}

theorem undoAll_stands {listing : Option (List RouterRule)}
    {undone : List Operation}
    (hown : ∀ c ∈ rest, c.operation.rule.owner.key = key)
    (h : Stands key p all rest s)
    (hleads :
      Leads (May key) (Completed.undoAll listing rest) s (undone, none) t) :
    Stands key p all [] t := by
  induction rest generalizing s undone with
  | nil =>
      obtain ⟨-, rfl⟩ := leads_done.mp hleads
      exact h
  | cons c rest ih =>
      obtain ⟨r, s₁, hcompensation, hundo⟩ := leads_bind.mp hleads
      have hs₁ := h.run (Compensation.asks_carryOut _ fun _ => trivial) hcompensation
      cases r with
      | error err =>
          obtain ⟨heq, -⟩ := leads_done.mp hundo
          exact absurd (congrArg Prod.snd heq) (by simp)
      | ok done =>
          obtain ⟨v, s₂, hreclaim, hundo⟩ := leads_bind.mp hundo
          obtain ⟨⟨later, failure⟩, s₃, hlater, hdone⟩ := leads_bind.mp hundo
          obtain ⟨heq, rfl⟩ := leads_done.mp hdone
          obtain ⟨-, rfl⟩ := Prod.mk.inj heq
          have hs₂ := hs₁.reclaim (hown c List.mem_cons_self) hreclaim
          exact ih (fun c' hc' => hown c' (List.mem_cons_of_mem _ hc')) hs₂ hlater

theorem halt_stands {cause : HaltCause} {skipped : Nat}
    (hown : ∀ c ∈ done, c.operation.rule.owner.key = key)
    (h : Stands key p done done s)
    (hleads : Leads (May key) (Completed.halt done cause skipped) s halt t)
    (hundone : halt.rollbackFailure = none) :
    halt.completed = done.reverse.map Completed.operation ∧
    Stands key p done [] t := by
  obtain ⟨⟨undone, failure⟩, s₁, hrollback, hdone⟩ := leads_bind.mp hleads
  obtain ⟨rfl, rfl⟩ := leads_done.mp hdone
  obtain rfl : failure = none := hundone
  refine ⟨rfl, ?_⟩
  unfold Completed.rollback at hrollback
  cases done with
  | nil =>
      obtain ⟨-, rfl⟩ := leads_done.mp hrollback
      exact h
  | cons c done =>
      obtain ⟨reply, s₂, hlist, hundo⟩ := leads_bind.mp hrollback
      have hs₂ := h.run (asks_request (r := .router .list) trivial) hlist
      exact undoAll_stands hown hs₂ hundo

def Notes (p : UInt16) (done : List Completed) : Prop :=
  ∀ c ∈ done, c.released = some p →
    c.operation.kind = .delete ∧ c.operation.slot.external = p

theorem executeAfter_stands (hdone : ∀ c ∈ done, c.operation.rule.owner.key = key)
    (htodo : ∀ op ∈ todo, op.rule.owner.key = key) (hnotes : Notes p done)
    (h : Stands key p done done s)
    (hleads :
      Leads (May key) (Plan.executeAfter needed done todo).run s (.error halt) t)
    (hundone : halt.rollbackFailure = none) :
    ∃ all, halt.completed = all.reverse.map Completed.operation ∧ Notes p all ∧
      Stands key p all [] t := by
  -- over what is left of the plan: what an operation gives back is noted before
  -- the next
  induction todo generalizing done s with
  | nil => exact absurd (leads_done.mp hleads).1 (by simp)
  | cons op todo ih =>
      rcases Plan.executeAfter_cons hleads with ⟨s₁, halt', hcancelled, hhalt, heq⟩ |
        ⟨s₁, err, s₂, halt', hcancelled, hattempt, hhalt, heq⟩ |
        ⟨s₁, applied, s₂, released, s₃, hcancelled, hattempt, hrelease, hlater⟩
      all_goals
        have hs₁ := h.run (asks_request (r := .cancelled) trivial)
          (leads_isCancelled.mpr hcancelled)
      · obtain rfl := Except.error.inj heq
        obtain ⟨hcompleted, ht⟩ := halt_stands hdone hs₁ hhalt hundone
        exact ⟨done, hcompleted, hnotes, ht⟩
      · obtain rfl := Except.error.inj heq
        have hs₂ := hs₁.run (Plan.asks_attempt op fun _ => trivial) hattempt
        obtain ⟨hcompleted, ht⟩ := halt_stands hdone hs₂ hhalt hundone
        exact ⟨done, hcompleted, hnotes, ht⟩
      · have hs₂ := hs₁.run (Plan.asks_attempt op fun _ => trivial) hattempt
        have hmine := htodo op List.mem_cons_self
        obtain ⟨hs₃, hnote⟩ := hs₂.release applied hmine hrelease
        refine ih ?_ (fun o ho => htodo o (List.mem_cons_of_mem _ ho)) ?_ hs₃ hlater
        · intro c hc
          rcases List.mem_cons.mp hc with rfl | hc
          · exact hmine
          · exact hdone c hc
        · intro c hc
          rcases List.mem_cons.mp hc with rfl | hc
          · exact hnote
          · exact hnotes c hc

/-- **What a Service has after its plan was undone.** Of the ports that it had
before, it has again those that no other Service was granted under way. The
others are taken, and each of them is the port of a rule that was deleted and
made again. -/
theorem undone_holders {s : Site} (hown : ∀ op ∈ plan, op.rule.owner.key = key)
    (h : Leads (May key) (Plan.execute plan).run ⟨s, []⟩ (.error halt) t)
    (hundone : halt.rollbackFailure = none) :
    ∀ p, s.holder? p = some key →
      (t.site.holder? p = some key ↔ p ∉ t.granted) ∧
      (p ∈ t.granted → (∃ other, other ≠ key ∧ t.site.holder? p = some other) ∧
        ∃ op ∈ halt.completed, op.kind = .delete ∧ op.slot.external = p) := by
  intro p hp
  have hstart : Stands key p [] [] ⟨s, []⟩ := .held hp List.not_mem_nil
  obtain ⟨all, hcompleted, hnotes, hstands⟩ := executeAfter_stands
    (fun c hc => absurd hc List.not_mem_nil) hown (fun c hc => absurd hc List.not_mem_nil)
    hstart h hundone
  rcases hstands with ⟨hheld, hfree⟩ | ⟨-, -, -, c, hc, -⟩ |
    ⟨hother, htaken, hgranted, c, hc, hreleased⟩
  · exact ⟨⟨fun _ => hfree, fun _ => hheld⟩, fun hmem => absurd hmem hfree⟩
  · exact absurd hc List.not_mem_nil
  · refine ⟨⟨fun hheld => ?_, fun hfree => absurd hgranted hfree⟩, fun _ =>
      ⟨⟨_, hother, htaken⟩, c.operation, ?_, hnotes c hc hreleased⟩⟩
    · exact absurd (Option.some.inj (htaken.symm.trans hheld)) hother
    · rw [hcompleted]
      exact List.mem_map_of_mem (List.mem_reverse.mpr hc)

end Contested

/-! ## A port that is claimed while it is free -/

namespace Sample

open Listing Contested

def rival : ServiceKey := ⟨"default", "api"⟩

def reserved (port : UInt16) (key : ServiceKey) : Reservations :=
  ⟨[(port, key)], by simp⟩

def stand (rules : List RouterRule) (issued : List String) (r : Reservations)
    (stopped : Bool) : Site :=
  ⟨rules, issued, ⟨r, .empty, .empty⟩, stopped⟩

def https : RouterRule := ⟨"a", (wish "https" 443 8443).spec⟩

def begun : Site := stand [https] ["a"] (reserved 443 key) false

def renewal : List Operation :=
  [.delete (wish "https" 443 8443) https .portNoLongerDesired, createHttp]

def withdrawn : Halt :=
  { cause := .failed createHttp (.api 500 "down")
    completed := renewal.take 1
    skipped := 0
    rolledBack := renewal.take 1
    rollbackFailure := none }

def ended : Contested :=
  ⟨stand [⟨"b", https.spec⟩] ["b", "a"] (reserved 443 rival) true, [443]⟩

theorem renewal_grounded : Plan.Grounded begun.rules renewal := by
  refine ⟨fun op hop hk => ?_, by decide⟩
  simp only [renewal, List.mem_cons, List.not_mem_nil, or_false] at hop
  rcases hop with rfl | rfl
  · exact ⟨https, List.mem_singleton.mpr rfl, rfl⟩
  · exact absurd rfl hk

theorem renewal_own : ∀ op ∈ renewal, op.rule.owner.key = key := by
  decide

/-- The other Service claims the port before the failing call is answered. -/
theorem renewal_leads :
    Leads (Contested.May key) (Plan.execute renewal).run ⟨begun,
      []⟩ (.error withdrawn) ended := by
  have halone : ∀ {s r reply t}, Answers s r reply t → Contested.May key s r reply t :=
    fun h => ⟨_, .none, h⟩
  have hclaim : Reservations.empty.claim rival [443] = .ok (reserved 443 rival) := by
    decide +kernel
  have hrefused : ended.site.memory.reservations.claim key [443] =
      .error ⟨443, rival⟩ := by
    decide +kernel
  have hanswer : (MemoryCall.claim key [443]).answer 0 ended.site.memory =
      (.error ⟨443, rival⟩, ended.site.memory) := by
    simp only [MemoryCall.answer, hrefused]
  refine leads_ask.mpr ⟨false, ⟨begun, []⟩, halone ⟨rfl, rfl⟩, ?_⟩
  refine leads_ask.mpr ⟨.ok (), ⟨stand [] ["a"] (reserved 443 key) false, []⟩,
    halone ⟨⟨by decide, rfl⟩, rfl⟩, ?_⟩
  refine leads_ask.mpr ⟨true, ⟨stand [] ["a"] .empty false, []⟩,
    halone ⟨⟨0, by decide, rfl⟩, rfl⟩, ?_⟩
  refine leads_ask.mpr ⟨false, ⟨stand [] ["a"] .empty false, []⟩, halone ⟨rfl, rfl⟩, ?_⟩
  refine leads_ask.mpr ⟨.error (.api 500 "down"),
    ⟨stand [] ["a"] (reserved 443 rival) true, [443]⟩,
    ⟨_, .claim .none (by decide) hclaim, rfl, rfl⟩, ?_⟩
  refine leads_ask.mpr ⟨.ok [], ⟨stand [] ["a"] (reserved 443 rival) true, [443]⟩,
    halone ⟨⟨rfl, rfl⟩, rfl⟩, ?_⟩
  refine leads_ask.mpr ⟨.ok ⟨"b", https.spec⟩, ended,
    halone ⟨⟨rfl, by decide, rfl⟩, rfl⟩, ?_⟩
  refine leads_ask.mpr ⟨.error ⟨443, rival⟩, ended, halone ⟨⟨0, ?_, ?_⟩, rfl⟩, ?_⟩
  · exact (congrArg Prod.fst hanswer).symm
  · exact congrArg (fun m => { ended.site with memory := m })
      (congrArg Prod.snd hanswer).symm
  · exact .done _ _

end Sample

namespace Contested

open Listing Sample

theorem undone_holders_sample :
    (∀ op ∈ renewal, op.rule.owner.key = key) ∧
    Leads (May key) (Plan.execute renewal).run ⟨begun, []⟩ (.error withdrawn) ended ∧
    withdrawn.rollbackFailure = none ∧ begun.holder? 443 = some key ∧
    (ended.site.holder? 443 = some key ↔ 443 ∉ ended.granted) ∧
    (443 ∈ ended.granted →
      (∃ other, other ≠ key ∧ ended.site.holder? 443 = some other) ∧
      ∃ op ∈ withdrawn.completed, op.kind = .delete ∧ op.slot.external = 443) :=
  ⟨renewal_own, renewal_leads, rfl, rfl,
    undone_holders renewal_own renewal_leads rfl 443 rfl⟩

/-- **A Service loses a port by a plan that was undone.** All that was carried out
is undone and the rule is on the router again, but its port is another's. -/
theorem undone_loses_port :
    ∃ (key other : ServiceKey) (s : Site) (t : Contested) (plan : List Operation)
      (halt : Halt) (r : RouterRule),
      s.Sound ∧ Plan.Grounded s.rules plan ∧ (∀ op ∈ plan, op.rule.owner.key = key) ∧
      Leads (May key) (Plan.execute plan).run ⟨s, []⟩ (.error halt) t ∧
      halt.rollbackFailure = none ∧ halt.rolledBack = halt.completed.reverse ∧
      s.holder? r.slot.external = some key ∧ r ∈ t.site.rules ∧
      r.isOwnedBy key = true ∧
      other ≠ key ∧ t.site.holder? r.slot.external = some other := by
  refine ⟨key, rival, begun, ended, renewal, withdrawn, ⟨"b", https.spec⟩,
    ⟨by decide, by decide⟩, renewal_grounded, renewal_own, renewal_leads, rfl,
    rfl, rfl, ?_, by decide, by decide, rfl⟩
  exact List.mem_singleton.mpr rfl

end Contested

end PortForwarding
