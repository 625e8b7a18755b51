import PortForwarding.Proofs.Script.Runs
import PortForwarding.Proofs.Simulation.World

/-!
# A router that keeps its rules in memory

`InMemory.May` are the rules by which such a router answers. Any call may fail,
and one that fails changes nothing. Unlike a `Site` it is always right when it
says that a rule is not found.

Where no rule is made or changed, rules only go by being removed
(`InMemory.rules_of_answered`). A simulated router answers like this unless it was
told otherwise (`Simulation.World.Steady`).
-/

namespace PortForwarding.InMemory

open Listing Script

variable {rules rules' : List RouterRule} {log : List Exchange}

/-- What a router may answer that keeps its rules in memory, and which rules it
has then. -/
def May : Possible (List RouterRule) := fun rules request reply rules' =>
  match request, reply with
  | .router .list, .ok listed => listed = rules ∧ rules' = rules
  | .router (.add spec), .ok rule =>
    rule.spec = spec ∧ rule.id ∉ ids rules ∧ rules' = rules ++ [rule]
  | .router (.update id spec), .ok rule =>
    rule = ⟨id, spec⟩ ∧ id ∈ ids rules ∧ rules' = overwrite id spec rules
  | .router (.remove id), .ok () => id ∈ ids rules ∧ rules' = without id rules
  | .router (.update id _), .error e | .router (.remove id), .error e =>
    (∀ what, e = .notFound what → id ∉ ids rules) ∧ rules' = rules
  | _, _ => rules' = rules

/-! ## Rules that are removed -/

def removed? : Exchange → Option String
  | ⟨.router (.remove id), .ok _⟩ => some id
  | _ => none

def removed (log : List Exchange) : List String :=
  log.filterMap removed?

theorem removed_append (log log' : List Exchange) :
    removed (log ++ log') = removed log ++ removed log' :=
  List.filterMap_append ..

def Keeps : Request → Prop
  | .router (.add _) | .router (.update _ _) => False
  | _ => True

/-- The rules that are left of some when these identifiers are removed. -/
def leftOf (gone : List String) (rules : List RouterRule) : List RouterRule :=
  rules.filter fun r => !gone.contains r.id

theorem leftOf_nil : leftOf [] rules = rules :=
  List.filter_eq_self.mpr fun _ _ => rfl

theorem leftOf_append (gone gone' : List String) :
    leftOf gone' (leftOf gone rules) = leftOf (gone ++ gone') rules := by
  unfold leftOf
  rw [List.filter_filter]
  refine List.filter_congr fun r _ => ?_
  rw [List.contains_append, Bool.not_or, Bool.and_comm]

theorem without_eq_leftOf (id : String) : without id rules = leftOf [id] rules :=
  List.filter_congr fun r _ => by simp

theorem rules_of_may {x : Exchange} (h : May rules x.1 x.2 rules')
    (hkeeps : Keeps x.1) : rules' = leftOf (removed [x]) rules := by
  obtain ⟨request, reply⟩ := x
  have hsame : rules' = rules → removed? ⟨request, reply⟩ = none →
      rules' = leftOf (removed [⟨request, reply⟩]) rules := by
    rintro rfl hnone
    rw [removed, List.filterMap_cons_none hnone]
    exact leftOf_nil.symm
  cases request with
  | router call =>
      cases call with
      | add spec | update id spec => exact hkeeps.elim
      | list =>
          cases reply with
          | ok listed => exact hsame h.2 rfl
          | error e => exact hsame h rfl
      | remove id =>
          cases reply with
          | ok u => exact h.2.trans (without_eq_leftOf id)
          | error e => exact hsame h.2 rfl
      | ready => exact hsame h rfl
  | store _ | memory _ | publish _ _ | cancelled | now | lock _ | unlock _ =>
      exact hsame h rfl

/-- **Rules only go by being removed.** -/
theorem rules_of_answered (h : Answered May rules log rules')
    (hkeeps : ∀ x ∈ log, Keeps x.1) : rules' = leftOf (removed log) rules := by
  induction h with
  | nil rules => exact leftOf_nil.symm
  | @cons request reply rules between rules' log now later ih =>
      obtain ⟨hthis, hlater⟩ := List.forall_mem_cons.mp hkeeps
      have hbetween : between = leftOf (removed [⟨request, reply⟩]) rules :=
        rules_of_may (x := ⟨request, reply⟩) now hthis
      rw [ih hlater, hbetween, leftOf_append]
      exact congrArg (leftOf · rules) (removed_append [⟨request, reply⟩] log).symm

/-! ## Routers that are never wrong about a rule -/

def Honest (rules : List RouterRule) : (call : RouterCall) → call.Reply → Prop
  | .update id _, reply => ∀ what, reply = .error (.notFound what) → id ∉ ids rules
  | .remove id, reply => ∀ what, reply = .error (.notFound what) → id ∉ ids rules
  | _, _ => True

theorem may_of_site {denying : Prop} {s t : Site} {call : RouterCall}
    {reply : call.Reply} (hs : s.Sound)
    (h : Site.May denying s (.router call) reply t)
    (hhonest : Honest s.rules call reply) :
    May s.rules (.router call) reply t.rules := by
  cases call with
  | list =>
      cases reply with
      | ok listed =>
          obtain ⟨rfl, rfl⟩ := h
          exact ⟨rfl, rfl⟩
      | error e =>
          obtain rfl : t = s := h
          exact rfl
  | ready =>
      obtain rfl : t = s := h
      exact rfl
  | add spec =>
      rcases Site.may_add h with ⟨rule, rfl, hspec, hid, rfl⟩ | ⟨e, rfl, rfl⟩
      · exact ⟨hspec, hs.id_notMem hid, rfl⟩
      · exact rfl
  | update id spec =>
      rcases Site.may_update h with ⟨rfl, hid, rfl⟩ | ⟨e, rfl, -, rfl⟩
      · exact ⟨rfl, hid, rfl⟩
      · exact ⟨fun what heq => hhonest what (heq ▸ rfl), rfl⟩
  | remove id =>
      rcases Site.may_remove h with ⟨rfl, hid, rfl⟩ | ⟨e, rfl, -, rfl⟩
      · exact ⟨hid, rfl⟩
      · exact ⟨fun what heq => hhonest what (heq ▸ rfl), rfl⟩

end PortForwarding.InMemory

/-! ## The simulated router -/

namespace PortForwarding.Simulation.Router

open InMemory Listing

variable {r : Router}

/-- A simulated router on which rules only go by being removed, and which has not
been told to say that a rule is not found. -/
structure Steady (r : Router) : Prop where
  vanishing : r.faults.vanishing = none
  calls : ∀ fault ∈ r.faults.calls, ∀ what, fault.2 ≠ .notFound what
  ids_nodup : (ids r.rules).Nodup
  ids_made : ∀ id ∈ ids r.rules, id ∈ idsUpTo r.made

def site (r : Router) : Site :=
  { rules := r.rules, issued := idsUpTo r.made, memory := .empty, stopped := false }

theorem Steady.showsAs (h : r.Steady) : r.ShowsAs r.site :=
  ⟨h.vanishing, rfl, rfl⟩

theorem Steady.sound (h : r.Steady) : r.site.Sound :=
  ⟨h.ids_nodup, h.ids_made⟩

theorem begin_calls (r : Router) (name what : String) :
    (r.begin name what).2.faults.calls = r.faults.calls := by
  unfold begin
  split
  · cases r.faults.vanishing <;> rfl
  · split <;> rfl

theorem begin_rules (h : r.faults.vanishing = none) (name what : String) :
    (r.begin name what).2.rules = r.rules := by
  unfold begin
  simp only [h]
  split
  · rfl
  · split <;> rfl

theorem begin_ne_notFound {name what : String} {e : RouterError}
    (h : (r.begin name what).1 = some e) : ∀ id, e ≠ .notFound id := by
  unfold begin at h
  split at h
  · cases h
    simp [injected]
  · split at h
    · cases h
      simp
    · cases h

/-- What the router has been told to fail at is not forgotten by being called. -/
theorem answer_calls (r : Router) (call : RouterCall) :
    (r.answer call).2.faults.calls = r.faults.calls := by
  have hbegin := begin_calls { r with calls := r.calls + 1 }
  unfold answer
  cases call with
  | list =>
      simp only [list]
      split <;> rfl
  | ready =>
      simp only [ready]
      split <;> rfl
  | add spec =>
      simp only
      split
      · rfl
      · rw [← hbegin spec.name "add", add]
        split <;> simp [*, insert]
  | update id spec =>
      simp only
      split
      · rfl
      · rw [← hbegin spec.name "update", update]
        split
        · simp [*]
        · split <;> simp [*, overwrite]
  | remove id =>
      simp only
      split
      · rfl
      · unfold remove
        split
        · rfl
        · next rule hfind =>
            rw [← hbegin rule.spec.name "remove"]
            split <;> simp [*, without]

theorem notMem_of_find? {id : String} (h : ¬(r.find? id).isSome = true) :
    id ∉ ids r.rules := by
  intro hmem
  obtain ⟨rule, hrule, rfl⟩ := List.mem_map.mp hmem
  exact h (List.find?_isSome.mpr ⟨rule, hrule, beq_self_eq_true _⟩)

theorem Steady.honest (h : r.Steady) (call : RouterCall) :
    Honest r.rules call (r.answer call).1 := by
  have hbegin := begin_rules (r := { r with calls := r.calls + 1 }) h.vanishing
  have htold : ∀ {e : RouterError}, r.faults.calls.lookup r.calls = some e →
      ∀ what, e ≠ .notFound what := by
    intro e hlookup
    obtain ⟨before, after, hcalls, -⟩ := List.lookup_eq_some_iff.mp hlookup
    exact h.calls (r.calls, e) (hcalls ▸ List.mem_append_right _ List.mem_cons_self)
  cases call with
  | list | ready | add _ => exact trivial
  | update id spec =>
      intro what hfailed
      unfold answer at hfailed
      simp only at hfailed
      split at hfailed
      · next e hlookup => exact absurd (Except.error.inj hfailed) (htold hlookup what)
      · unfold update at hfailed
        split at hfailed
        · next e begun hb =>
            exact absurd (Except.error.inj hfailed)
              (begin_ne_notFound (congrArg Prod.fst hb) what)
        · next begun hb =>
            split at hfailed
            · cases hfailed
            · next hfind =>
                have hrules : begun.rules = r.rules := by
                  rw [← hbegin spec.name "update", hb]
                exact hrules ▸ notMem_of_find? hfind
  | remove id =>
      intro what hfailed
      unfold answer at hfailed
      simp only at hfailed
      split at hfailed
      · next e hlookup => exact absurd (Except.error.inj hfailed) (htold hlookup what)
      · unfold remove at hfailed
        split at hfailed
        · next hfind => exact notMem_of_find? (r := r) (by simpa [find?] using hfind)
        · next rule hfind =>
            split at hfailed
            · next e begun hb =>
                exact absurd (Except.error.inj hfailed)
                  (begin_ne_notFound (congrArg Prod.fst hb) what)
            · cases hfailed

/-- **The simulated router keeps its rules in memory.** -/
theorem Steady.answer_may (h : r.Steady) (call : RouterCall) :
    InMemory.May r.rules (.router call) (r.answer call).1 (r.answer call).2.rules ∧
      (r.answer call).2.Steady := by
  obtain ⟨t, hmay, hshows, -⟩ := Router.answer_may h.showsAs h.sound call
  have hsound := h.sound.step hmay
  refine ⟨hshows.rules ▸ may_of_site h.sound hmay (h.honest call),
    hshows.vanishing, ?_, ?_, ?_⟩
  · exact answer_calls r call ▸ h.calls
  · exact hshows.rules ▸ hsound.ids_nodup
  · rw [← hshows.rules, ← hshows.issued]
    exact hsound.ids_issued

end PortForwarding.Simulation.Router

/-! ## The simulated world -/

namespace PortForwarding.Simulation.World

open Script

variable {w : World}

/-- Nothing happens to the router of this world but what it is asked for. -/
structure Steady (w : World) : Prop where
  surprises : w.surprises = []
  router : w.router.Steady

theorem checkSignal_kept (w : World) :
    w.checkSignal.router = w.router ∧ w.checkSignal.surprises = w.surprises := by
  unfold checkSignal
  split
  · split <;> exact ⟨rfl, rfl⟩
  · exact ⟨rfl, rfl⟩

theorem answerRouter_eq (h : w.surprises = []) (call : RouterCall) :
    (w.answerRouter call).1 = (w.router.answer call).1 ∧
      (w.answerRouter call).2.router = (w.router.answer call).2 ∧
      (w.answerRouter call).2.surprises = [] := by
  have hsurprised : w.surprised = w := by
    unfold surprised
    rw [h]
    rfl
  cases call <;> simp [answerRouter, hsurprised, RouterCall.isMutation,
    checkSignal_kept, h]

theorem Steady.answer_may (h : w.Steady) (who : Nat) (r : Request) :
    InMemory.May w.router.rules r (answer who r w).1 (answer who r w).2.router.rules ∧
      (answer who r w).2.Steady := by
  cases r with
  | router call =>
      obtain ⟨hreply, hrouter, hsurprises⟩ := answerRouter_eq h.surprises call
      obtain ⟨hmay, hsteady⟩ := h.router.answer_may call
      have hanswered : InMemory.May w.router.rules (.router call) (w.answerRouter call).1
          (w.answerRouter call).2.router.rules := by
        rw [hreply, hrouter]
        exact hmay
      exact ⟨hanswered, hsurprises, hrouter ▸ hsteady⟩
  | store _ | memory _ | publish _ _ | cancelled | now | lock _ | unlock _ =>
      exact ⟨rfl, h.surprises, h.router⟩

/-- **A run in a world in memory is answered by a router that keeps its rules
in memory.** -/
theorem Steady.answered {α : Type} (h : w.Steady) (who : Nat) (script : Script α) :
    Answered InMemory.May w.router.rules ((trace (answer who) script w).map Prod.fst)
      (run (answer who) script w).2.router.rules :=
  answered_trace (f := fun w : World => w.router.rules) (fun r _ h =>
    (Steady.answer_may h who r).1)
    (fun r _ h => (Steady.answer_may h who r).2) script h

end PortForwarding.Simulation.World
