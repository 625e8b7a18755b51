import PortForwarding.Proofs.Site
import PortForwarding.Simulation.World

/-!
# The world in memory is a site

A simulated world in which nothing happens to the router but what it is asked for
answers as a site may: whichever of its calls it has been told to fail at, and
with whichever errors. So whatever holds of every run on a site holds of a run in
that world (`World.leads`).
-/

namespace PortForwarding.Simulation

open Listing Script

variable {w : World} {s : Site}

/-- The identifiers of the first rules that were made, the latest first. -/
def idsUpTo : Nat → List String
  | 0 => []
  | n + 1 => Router.idOf (n + 1) :: idsUpTo n

theorem idOf_injective : Function.Injective Router.idOf := by
  intro m n h
  have htext : Text.showNat m = Text.showNat n := by
    have hlist := congrArg String.toList h
    unfold Router.idOf at hlist
    rw [String.toList_append, String.toList_append] at hlist
    exact String.toList_inj.mp (List.append_cancel_left hlist)
  unfold Text.showNat at htext
  have hdigits :=
    congrArg (fun cs => Nat.ofDigitChars 10 cs 0) (String.ofList_injective htext)
  simpa [Nat.ofDigitChars_toDigits] using hdigits

theorem idOf_notMem_idsUpTo {m n : Nat} (h : n < m) : Router.idOf m ∉ idsUpTo n := by
  induction n with
  | zero => exact List.not_mem_nil
  | succ n ih =>
      intro hmem
      rcases List.mem_cons.mp hmem with heq | hmem
      · have := idOf_injective heq
        omega
      · exact ih (by omega) hmem

/-- Where no identifier comes twice, the first rule of an identifier is the
only one. -/
theorem overwriteIn_eq {id : String} {spec : RuleSpec} {rules : List RouterRule}
    (hnd : (ids rules).Nodup) :
    Router.overwriteIn id spec rules = overwrite id spec rules := by
  induction rules with
  | nil => rfl
  | cons r rules ih =>
      obtain ⟨hr, hnd⟩ := List.nodup_cons.mp hnd
      unfold Router.overwriteIn
      by_cases hid : r.id = id
      · have hrest : overwrite id spec rules = rules := by
          refine overwrite_eq_self spec fun r' hr' heq => hr ?_
          rw [hid, ← heq]
          exact mem_ids_of_mem hr'
        rw [if_pos hid]
        unfold overwrite at hrest ⊢
        rw [List.map_cons, hrest, if_pos hid]
      · rw [if_neg hid, ih hnd]
        unfold overwrite
        rw [List.map_cons, if_neg hid]

/-! ## The router -/

/-- The site is as the router, from which no rule vanishes. -/
structure Router.ShowsAs (r : Router) (s : Site) : Prop where
  vanishing : r.faults.vanishing = none
  rules : s.rules = r.rules
  issued : s.issued = idsUpTo r.made

namespace Router

variable {r : Router} {id : String} {spec : RuleSpec}

theorem ShowsAs.of_begin (name what : String) (h : r.ShowsAs s) :
    (r.begin name what).2.ShowsAs s := by
  unfold begin
  split
  · simp only [h.vanishing]
    exact ⟨rfl, h.rules, h.issued⟩
  · split
    · exact ⟨h.vanishing, h.rules, h.issued⟩
    · exact ⟨h.vanishing, h.rules, h.issued⟩

theorem ShowsAs.refused (h : r.ShowsAs s) : r.ShowsAs { s with stopped := true } :=
  ⟨h.vanishing, h.rules, h.issued⟩

theorem add_may (h : r.ShowsAs s) :
    ∃ t, Site.May True s (.router (.add spec)) (r.add spec).1 t ∧
      (r.add spec).2.ShowsAs t ∧
      t.memory = s.memory := by
  have hbegin := h.of_begin spec.name "add"
  unfold add
  cases hb : r.begin spec.name "add" with
  | mk failure begun =>
      rw [hb] at hbegin
      cases failure with
      | some e => exact ⟨_, rfl, hbegin.refused, rfl⟩
      | none =>
          -- identifiers are counted up, so the next one was never given out
          have hfresh : idOf (begun.made + 1) ∉ s.issued := by
            rw [hbegin.issued]
            exact idOf_notMem_idsUpTo (Nat.lt_succ_self _)
          refine ⟨_, ⟨rfl, hfresh, rfl⟩, ⟨hbegin.vanishing, ?_, ?_⟩, rfl⟩
          · exact congrArg (· ++ [_]) hbegin.rules
          · exact congrArg (_ :: ·) hbegin.issued

theorem mem_ids_of_find? (h : (r.find? id).isSome = true) : id ∈ ids r.rules := by
  obtain ⟨rule, hfind⟩ := Option.isSome_iff_exists.mp h
  have hid : rule.id = id := by simpa using List.find?_some hfind
  exact hid ▸ mem_ids_of_mem (List.mem_of_find?_eq_some hfind)

theorem update_may (h : r.ShowsAs s) (hs : s.Sound) :
    ∃ t, Site.May True s (.router (.update id spec)) (r.update id spec).1 t ∧
      (r.update id spec).2.ShowsAs t ∧ t.memory = s.memory := by
  have hbegin := h.of_begin spec.name "update"
  unfold update
  cases hb : r.begin spec.name "update" with
  | mk failure begun =>
      rw [hb] at hbegin
      cases failure with
      | some e => exact ⟨_, ⟨fun _ => trivial, rfl⟩, hbegin.refused, rfl⟩
      | none =>
          by_cases hfind : (begun.find? id).isSome = true
          · have hmem : id ∈ ids s.rules := by
              rw [hbegin.rules]
              exact mem_ids_of_find? hfind
            simp only [hfind, if_true]
            refine ⟨_, ⟨rfl, hmem, rfl⟩, ⟨hbegin.vanishing, ?_, hbegin.issued⟩, rfl⟩
            show Listing.overwrite id spec s.rules = overwriteIn id spec begun.rules
            rw [← hbegin.rules, overwriteIn_eq hs.ids_nodup]
          · simp only [hfind]
            exact ⟨_, ⟨fun _ => trivial, rfl⟩, hbegin.refused, rfl⟩

theorem remove_may (h : r.ShowsAs s) :
    ∃ t, Site.May True s (.router (.remove id)) (r.remove id).1 t ∧
      (r.remove id).2.ShowsAs t ∧ t.memory = s.memory := by
  unfold remove
  cases hfind : r.find? id with
  | none => exact ⟨_, ⟨fun _ => trivial, rfl⟩, h.refused, rfl⟩
  | some rule =>
      have hbegin := h.of_begin rule.spec.name "remove"
      simp only
      cases hb : r.begin rule.spec.name "remove" with
      | mk failure begun =>
          rw [hb] at hbegin
          cases failure with
          | some e => exact ⟨_, ⟨fun _ => trivial, rfl⟩, hbegin.refused, rfl⟩
          | none =>
              have hmem : id ∈ ids s.rules := by
                rw [h.rules]
                exact mem_ids_of_find? (by rw [hfind]; rfl)
              refine ⟨_, ⟨hmem, rfl⟩, ⟨hbegin.vanishing, ?_, hbegin.issued⟩, rfl⟩
              exact congrArg (Listing.without id) hbegin.rules

/-- **The router in memory answers as a site may.** -/
theorem answer_may (h : r.ShowsAs s) (hs : s.Sound) (call : RouterCall) :
    ∃ t, Site.May True s (.router call) (r.answer call).1 t ∧
      (r.answer call).2.ShowsAs t ∧
      t.memory = s.memory := by
  have hcalled : Router.ShowsAs { r with calls := r.calls + 1 } s :=
    ⟨h.vanishing, h.rules, h.issued⟩
  unfold answer
  cases call with
  | list =>
      refine ⟨s, ?_, ⟨?_, ?_, ?_⟩, rfl⟩ <;> simp only [list] <;> split
      · exact rfl
      · split
        · exact rfl
        · exact ⟨h.rules.symm, rfl⟩
      all_goals first | exact h.vanishing | exact h.rules | exact h.issued
  | ready =>
      refine ⟨s, rfl, ⟨?_, ?_, ?_⟩, rfl⟩ <;> simp only [ready] <;> split
      all_goals first | exact h.vanishing | exact h.rules | exact h.issued
  | add spec =>
      simp only
      split
      · exact ⟨_, rfl, hcalled.refused, rfl⟩
      · exact add_may hcalled
  | update id spec =>
      simp only
      split
      · exact ⟨_, ⟨fun _ => trivial, rfl⟩, hcalled.refused, rfl⟩
      · exact update_may hcalled hs
  | remove id =>
      simp only
      split
      · exact ⟨_, ⟨fun _ => trivial, rfl⟩, hcalled.refused, rfl⟩
      · exact remove_may hcalled

end Router

/-! ## The world -/

/-- The site is as the world, where nothing happens to the router but what it is
asked for. -/
structure World.ShowsAs (w : World) (s : Site) : Prop where
  surprises : w.surprises = []
  router : w.router.ShowsAs s
  memory : s.memory = w.memory

namespace World

theorem ShowsAs.of_router {router : Router} {t : Site} (h : w.ShowsAs s)
    (hrouter : router.ShowsAs t) (hmemory : t.memory = s.memory) :
    World.ShowsAs { w with router := router } t :=
  ⟨h.surprises, hrouter, hmemory.trans h.memory⟩

theorem ShowsAs.of_checkSignal (h : w.ShowsAs s) : w.checkSignal.ShowsAs s := by
  unfold checkSignal
  split
  · split
    · exact ⟨h.surprises, h.router, h.memory⟩
    · exact h
  · exact h

theorem answerRouter_may (h : w.ShowsAs s) (hs : s.Sound) (call : RouterCall) :
    ∃ t, Site.May True s (.router call) (w.answerRouter call).1 t ∧
      (w.answerRouter call).2.ShowsAs t := by
  have hsurprised : w.surprised = w := by
    unfold surprised
    rw [h.surprises]
    rfl
  obtain ⟨t, hmay, hrouter, hmemory⟩ := Router.answer_may h.router hs call
  refine ⟨t, ?_, ?_⟩
  · cases call <;> simpa [answerRouter, hsurprised] using hmay
  · have hshows := h.of_router hrouter hmemory
    cases call with
    | list => simpa [answerRouter, hsurprised, RouterCall.isMutation] using hshows
    | ready => exact hshows
    | add _ | update _ _ | remove _ => exact hshows.of_checkSignal

/-- **A world in memory answers as a site may.** -/
theorem answer_may (who : Nat) (h : w.ShowsAs s) (hs : s.Sound) (request : Request) :
    ∃ t, Site.May True s request (answer who request w).1 t ∧
      (answer who request w).2.ShowsAs t := by
  cases request with
  | router call =>
      obtain ⟨t, hmay, hshows⟩ := answerRouter_may h hs call
      exact ⟨t, hmay, hshows.surprises, hshows.router, hshows.memory⟩
  | memory call =>
      refine ⟨_, ⟨instant, ?_, rfl⟩, h.surprises, ⟨h.router.vanishing, h.router.rules,
        h.router.issued⟩, ?_⟩
      · rw [h.memory]
        rfl
      · rw [h.memory]
        rfl
  | cancelled => exact ⟨_, rfl, h.surprises, ⟨h.router.vanishing, h.router.rules,
      h.router.issued⟩, h.memory⟩
  | store _ | publish _ _ | now | lock _ | unlock _ =>
      exact ⟨s, rfl, h.surprises, h.router, h.memory⟩

/-- **A run in a world in memory is a run on a site.** -/
theorem leads {α : Type} (who : Nat) (h : w.ShowsAs s) (hs : s.Sound)
    (script : Script α) :
    ∃ t, Leads (Site.May True) script s (run (answer who) script w).1 t ∧
      (run (answer who) script w).2.ShowsAs t := by
  induction script generalizing w s with
  | done a => exact ⟨s, .done a s, h⟩
  | ask request next ih =>
      obtain ⟨t, hmay, hshows⟩ := answer_may who h hs request
      obtain ⟨u, hleads, hafter⟩ := ih _ hshows (hs.step hmay)
      exact ⟨u, .ask hmay hleads, hafter⟩

end World

end PortForwarding.Simulation
