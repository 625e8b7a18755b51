import PortForwarding.Proofs.Plan.Balance
import PortForwarding.Proofs.Reservations.Holders
import PortForwarding.Proofs.Script.Leads

/-!
# A router that nobody else writes to

A `Site` is what a pass finds and leaves: the rules of the router, the identifiers
it has ever given out, and the shared memory. `Site.May` are the rules by which it
answers. Any call may fail, with any error and as often as it likes, and a call
that fails changes no rule; a created rule gets an identifier that was never given
out before; the signal to stop may be seen at any time.

One thing is singled out. A pass that undoes what it did takes the answer that a
rule is not known for the truth. A site that gives this answer about a rule that
is there *denies* it; `Site.May False` are the sites that never do, `Site.May
True` are all.
-/

namespace PortForwarding

open Listing Script

/-- The router and the memory, as long as nobody else uses them. -/
structure Site where
  rules : List RouterRule
  /-- The identifiers that were ever given to a rule. -/
  issued : List String
  memory : Memory
  /-- Whether a change has been refused or the signal to stop has been seen. -/
  stopped : Bool

namespace Site

def holder? (s : Site) (port : UInt16) : Option ServiceKey :=
  s.memory.reservations.holder? port

/-- A rule that is there is said not to be known, to a pass that has been
stopped. -/
def Denies (s : Site) (id : String) : RouterError → Prop
  | .notFound _ => s.stopped = true ∧ id ∈ ids s.rules
  | _ => False

/-- What a site may answer, and how it is then. -/
def May (denying : Prop) : Possible Site := fun s request reply t =>
  match request, reply with
  | .router .list, .ok rules => rules = s.rules ∧ t = s
  | .router (.add spec), .ok rule =>
    rule.spec = spec ∧ rule.id ∉ s.issued ∧
      t = { s with rules := s.rules ++ [rule], issued := rule.id :: s.issued }
  | .router (.add _), .error _ => t = { s with stopped := true }
  | .router (.update id spec), .ok rule =>
    rule = ⟨id, spec⟩ ∧ id ∈ ids s.rules ∧
      t = { s with rules := overwrite id spec s.rules }
  | .router (.update id _), .error e =>
      (s.Denies id e → denying) ∧ t = { s with stopped := true }
  | .router (.remove id), .ok () =>
      id ∈ ids s.rules ∧ t = { s with rules := without id s.rules }
  | .router (.remove id), .error e =>
      (s.Denies id e → denying) ∧ t = { s with stopped := true }
  | .memory call, reply =>
    ∃ now, reply = (call.answer now s.memory).1 ∧
      t = { s with memory := (call.answer now s.memory).2 }
  | .cancelled, seen => t = { s with stopped := s.stopped || seen }
  | _, _ => t = s

/-- No identifier comes twice, and none that was given out comes again. -/
structure Sound (s : Site) : Prop where
  ids_nodup : (ids s.rules).Nodup
  ids_issued : ∀ id ∈ ids s.rules, id ∈ s.issued

/-! ## Operations on a site -/

/-- The operation has been carried out on the router: a created rule got the
identifier `id`. -/
structure Applies (op : Operation) (id : String) (s t : Site) : Prop where
  rules : t.rules = op.apply id s.rules
  fresh : op.kind = .create → id ∉ s.issued ∧ t.issued = id :: s.issued
  issued : op.kind ≠ .create → t.issued = s.issued
  memory : t.memory = s.memory
  stopped : t.stopped = s.stopped

def Refuses (s t : Site) : Prop :=
  t = { s with stopped := true }

variable {denying : Prop} {s t : Site} {op : Operation} {id : String}
  {spec : RuleSpec}

theorem Sound.id_notMem (hs : s.Sound) (hid : id ∉ s.issued) : id ∉ ids s.rules :=
  fun h => hid (hs.ids_issued id h)

theorem Sound.of_added {rule : RouterRule} (hs : s.Sound)
    (hrules : t.rules = s.rules ++ [rule])
    (hissued : t.issued = rule.id :: s.issued) (hid : rule.id ∉ s.issued) :
    t.Sound := by
  have hids : ids t.rules = ids s.rules ++ [rule.id] := by
    rw [hrules]
    exact List.map_append
  constructor
  · rw [hids, List.nodup_append]
    refine ⟨hs.ids_nodup, by simp, ?_⟩
    intro i hi j hj
    obtain rfl : j = rule.id := by simpa using hj
    rintro rfl
    exact hs.id_notMem hid hi
  · intro i hi
    rw [hids, List.mem_append, List.mem_singleton] at hi
    rw [hissued, List.mem_cons]
    exact hi.symm.imp_right (hs.ids_issued i)

theorem Sound.of_sublist (hs : s.Sound) (hids : (ids t.rules).Sublist (ids s.rules))
    (hissued : t.issued = s.issued) : t.Sound := by
  constructor
  · exact hs.ids_nodup.sublist hids
  · intro i hi
    rw [hissued]
    exact hs.ids_issued i (hids.subset hi)

theorem Applies.sound (h : Applies op id s t) (hs : s.Sound)
    (hop : op.IsGrounded s.rules) : t.Sound := by
  rcases hop.cases with hk | ⟨e, he, hex, hk | hk⟩
  · obtain ⟨hid, hissued⟩ := h.fresh hk
    exact hs.of_added (h.rules.trans (Operation.apply_of_create hk)) hissued hid
  · refine hs.of_sublist ?_ (h.issued (by simp [hk]))
    rw [h.rules, Operation.apply_of_update hk hex, ids_overwrite]
  · refine hs.of_sublist ?_ (h.issued (by simp [hk]))
    rw [h.rules, Operation.apply_of_delete hk hex]
    exact ids_without_sublist

/-! ## Answers -/

theorem may_add {r : Except RouterError RouterRule}
    (h : May denying s (.router (.add spec)) r t) :
    (∃ rule, r = .ok rule ∧ rule.spec = spec ∧ rule.id ∉ s.issued ∧
        t = { s with rules := s.rules ++ [rule], issued := rule.id :: s.issued }) ∨
      (∃ e, r = .error e ∧ Refuses s t) := by
  cases r with
  | ok rule => exact Or.inl ⟨rule, rfl, h⟩
  | error e => exact Or.inr ⟨e, rfl, h⟩

theorem may_update {r : Except RouterError RouterRule}
    (h : May denying s (.router (.update id spec)) r t) :
    (r = .ok ⟨id, spec⟩ ∧ id ∈ ids s.rules ∧
      t = { s with rules := overwrite id spec s.rules }) ∨
      (∃ e, r = .error e ∧ (s.Denies id e → denying) ∧ Refuses s t) := by
  cases r with
  | ok rule =>
      obtain ⟨rfl, hid, ht⟩ := h
      exact Or.inl ⟨rfl, hid, ht⟩
  | error e => exact Or.inr ⟨e, rfl, h⟩

theorem may_remove {r : Except RouterError Unit}
    (h : May denying s (.router (.remove id)) r t) :
    (r = .ok () ∧ id ∈ ids s.rules ∧ t = { s with rules := without id s.rules }) ∨
      (∃ e, r = .error e ∧ (s.Denies id e → denying) ∧ Refuses s t) := by
  cases r with
  | ok u => exact Or.inl ⟨rfl, h⟩
  | error e => exact Or.inr ⟨e, rfl, h⟩

theorem may_list {r : Except RouterError (List RouterRule)}
    (h : May denying s (.router .list) r t) :
    t = s ∧ (r = .ok s.rules ∨ ∃ e, r = .error e) := by
  cases r with
  | ok rules =>
      obtain ⟨rfl, ht⟩ := h
      exact ⟨ht, Or.inl rfl⟩
  | error e => exact ⟨h, Or.inr ⟨e, rfl⟩⟩

theorem may_notCancelled (h : May denying s .cancelled false t) : t = s := by
  have hstopped : t = { s with stopped := s.stopped || false } := h
  rw [hstopped, Bool.or_false]

/-- **A sound site stays sound**, whatever is asked of it. -/
theorem Sound.step {request : Request} {reply : request.Reply} (hs : s.Sound)
    (h : May denying s request reply t) : t.Sound := by
  have hsame : ∀ u : Site, u.rules = s.rules → u.issued = s.issued → u.Sound :=
    fun u hrules hissued => hs.of_sublist (by rw [hrules]) hissued
  cases request with
  | router call =>
      cases call with
      | list =>
          obtain ⟨rfl, -⟩ := may_list h
          exact hs
      | add spec =>
          rcases may_add h with ⟨rule, -, -, hid, rfl⟩ | ⟨e, -, rfl⟩
          · exact hs.of_added rfl rfl hid
          · exact hsame _ rfl rfl
      | update id spec =>
          rcases may_update h with ⟨-, -, rfl⟩ | ⟨e, -, -, rfl⟩
          · exact hs.of_sublist (by rw [ids_overwrite]) rfl
          · exact hsame _ rfl rfl
      | remove id =>
          rcases may_remove h with ⟨-, -, rfl⟩ | ⟨e, -, -, rfl⟩
          · exact hs.of_sublist ids_without_sublist rfl
          · exact hsame _ rfl rfl
      | ready =>
          obtain rfl : t = s := h
          exact hs
  | memory call =>
      obtain ⟨now, -, rfl⟩ := h
      exact hsame _ rfl rfl
  | cancelled =>
      obtain rfl : t = { s with stopped := s.stopped || reply } := h
      exact hsame _ rfl rfl
  | store _ | publish _ _ | now | lock _ | unlock _ =>
      obtain rfl : t = s := h
      exact hs

def KeepsReservations : Request → Prop
  | .memory (.claim _ _) | .memory (.retain _ _) | .memory (.release _ _)
  | .memory (.releaseAll _) => False
  | _ => True

theorem KeepsReservations.step {request : Request} {reply : request.Reply}
    (hkeeps : KeepsReservations request) (h : May denying s request reply t) :
    t.memory.reservations = s.memory.reservations := by
  cases request with
  | router call =>
      cases call with
      | list =>
          obtain ⟨rfl, -⟩ := may_list h
          rfl
      | add spec => rcases may_add h with ⟨rule, -, -, -, rfl⟩ | ⟨err, -, rfl⟩ <;> rfl
      | update id spec => rcases may_update h with ⟨-, -, rfl⟩ | ⟨err, -, -, rfl⟩ <;> rfl
      | remove id => rcases may_remove h with ⟨-, -, rfl⟩ | ⟨err, -, -, rfl⟩ <;> rfl
      | ready =>
          obtain rfl : t = s := h
          rfl
  | memory call =>
      obtain ⟨now, -, rfl⟩ := h
      cases call with
      | claim _ _ | retain _ _ | release _ _ | releaseAll _ => exact hkeeps.elim
      | observe _ _ | remaining _ | forget _ | countRetry _ | resetRetries _ => rfl
  | cancelled =>
      obtain rfl : t = { s with stopped := s.stopped || reply } := h
      rfl
  | store _ | publish _ _ | now | lock _ | unlock _ =>
      obtain rfl : t = s := h
      rfl

/-- A script that asks for nothing of the kind changes no reservation. -/
theorem KeepsReservations.run {α : Type} {script : Script α} {a : α}
    (hasks : Asks KeepsReservations script) (h : Leads (May denying) script s a t) :
    t.memory.reservations = s.memory.reservations :=
  h.preserves_of_asks (P := fun u => u.memory.reservations = s.memory.reservations) hasks
    (fun hkeeps hu hmay => (KeepsReservations.step hkeeps hmay).trans hu) rfl

theorem lockedTry_leads {α ε : Type} {key : ServiceKey} {body : ExceptT ε Script α}
    {r : Except ε α} (h : Leads (May denying) (lockedTry key body).run s r t) :
    Leads (May denying) body.run s r t := by
  obtain ⟨u, s₁, hlock, hrest⟩ := leads_bind.mp h
  obtain ⟨a, s₂, hbody, hrest⟩ := leads_bind.mp hrest
  obtain ⟨u, s₃, hunlock, hdone⟩ := leads_bind.mp hrest
  obtain ⟨rfl, rfl⟩ := leads_done.mp hdone
  obtain rfl : s₁ = s := leads_request.mp hlock
  obtain rfl : t = s₂ := leads_request.mp hunlock
  exact hbody

theorem Sound.run {α : Type} {script : Script α} {a : α} (hs : s.Sound)
    (h : Leads (May denying) script s a t) : t.Sound :=
  h.preserves (fun hs hmay => Sound.step hs hmay) hs

end Site

end PortForwarding
