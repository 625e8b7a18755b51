import PortForwarding.Proofs.Plan.Inverse

/-!
# Halfway through a plan

Two invariants of an execution count what the operations took and gave and nothing
else, and so serve going forwards and going back.

- `Placed`: the configurations on the router balance with the operations that were
  carried out, and the rules that are still to be addressed, by the plan or by its
  undoing, are there.
- `Ledger`: every reservation that went with an operation is noted beside it.
-/

namespace PortForwarding

open Listing Script Operation

/-! ## What an execution has made of the rules -/

namespace Plan

/-- The rules that are still to be addressed: what was left by operations that may
have to be undone, and the targets of those that were not begun. -/
def held (done : List Completed) (todo : List Operation) : List RouterRule :=
  done.filterMap Completed.left? ++ targets todo

/-- **After the operations `done`, the latest first, and before the operations
`todo`**, the configurations balance with what was done, and what is still to be
addressed is there. -/
structure Placed (start : List RouterRule) (done : List Completed)
    (todo : List Operation) (s : Site) : Prop where
  sound : s.Sound
  faithful : ∀ c ∈ done, c.Faithful
  targeted : ∀ op ∈ todo, op.kind ≠ .create → op.existing.isSome
  present : ∀ r ∈ held done todo, r ∈ s.rules
  apart : (ids (held done todo)).Nodup
  balance : (specs s.rules ++ done.flatMap fun c => c.operation.taken).Perm
    (specs start ++ done.flatMap fun c => c.operation.given)

variable {start : List RouterRule} {done : List Completed} {todo : List Operation}
  {c : Completed} {op : Operation} {s t : Site} {id : String}

theorem held_cons_done :
    held (c :: done) todo = c.left?.toList ++ held done todo := by
  unfold held
  cases h : c.left? <;> simp [h]

theorem held_cons_todo :
    (held done (op :: todo)).Perm (op.target?.toList ++ held done todo) := by
  unfold held targets
  cases h : op.target? with
  | none => simp [h]
  | some e => simp [h]

theorem mem_apply_of_apart {kept rules : List RouterRule}
    (hop : op.IsGrounded rules) (hkept : ∀ r ∈ kept, r ∈ rules)
    (hapart : (ids (op.target?.toList ++ kept)).Nodup) :
    ∀ r ∈ kept, r ∈ op.apply id rules := by
  intro r hr
  refine mem_apply_of_ne hop (hkept r hr) fun e he heq => ?_
  unfold ids at hapart
  rw [he, List.map_append, List.nodup_append] at hapart
  exact hapart.2.2 e.id (by simp) r.id (List.mem_map_of_mem hr) heq.symm

theorem mem_apply_of_left {rules : List RouterRule} {r : RouterRule}
    (hop : c.operation.IsGrounded rules) (hc : c.Faithful) (hr : c.left? = some r) :
    r ∈ c.operation.apply c.applied.id rules := by
  rcases hc with ⟨hk, hspec⟩ | ⟨before, hk, hex, happlied⟩ | ⟨before, hk, hex⟩
  · obtain rfl : c.applied = r := by simpa [Completed.left?, hk] using hr
    rw [apply_of_create hk, ← hspec]
    exact List.mem_append_right _ (List.mem_singleton.mpr rfl)
  · obtain rfl : c.applied = r := by simpa [Completed.left?, hk] using hr
    obtain ⟨e, he, hex'⟩ := hop (by simp [hk])
    obtain rfl := Option.some.inj (hex.symm.trans hex')
    rw [apply_of_update hk hex, happlied]
    exact mem_overwrite_self _ he
  · exact absurd hr (by simp [Completed.left?, hk])

/-- What an operation has left is apart from the rules that its target was
apart from. -/
theorem nodup_left {kept : List RouterRule} (hc : c.Faithful)
    (hapart : (ids (c.operation.target?.toList ++ kept)).Nodup)
    (hnew : c.operation.kind = .create → c.applied.id ∉ ids kept) :
    (ids (c.left?.toList ++ kept)).Nodup := by
  rcases hc with ⟨hk, hspec⟩ | ⟨before, hk, hex, happlied⟩ | ⟨before, hk, hex⟩
  · have htarget : c.operation.target? = none := by simp [target?, hk]
    have hleft : c.left? = some c.applied := by simp [Completed.left?, hk]
    rw [htarget] at hapart
    rw [hleft]
    exact List.nodup_cons.mpr ⟨hnew hk, hapart⟩
  · have htarget : c.operation.target? = some before := by simp [target?, hk, hex]
    have hleft : c.left? = some ⟨before.id, c.operation.rule.spec⟩ := by
      simp [Completed.left?, hk, happlied]
    rw [htarget] at hapart
    rw [hleft]
    exact hapart
  · have hleft : c.left? = none := by simp [Completed.left?, hk]
    rw [hleft]
    exact hapart.sublist ((List.sublist_append_right _ _).map _)

namespace Placed

theorem start_of_grounded (hs : s.Sound) (hplan : Grounded s.rules todo) :
    Placed s.rules [] todo s := by
  refine ⟨hs, by simp, ?_, ?_, hplan.apart, List.Perm.refl _⟩
  · intro op hop hk
    obtain ⟨e, -, hex⟩ := hplan.each op hop hk
    simp [hex]
  · intro r hr
    obtain ⟨op, hop, htarget⟩ := List.mem_filterMap.mp hr
    rcases (hplan.each op hop).cases with hk | ⟨e, he, hex, hk | hk⟩
    · exact absurd htarget (by simp [target?, hk])
    · obtain rfl : e = r := by simpa [target?, hk, hex] using htarget
      exact he
    · obtain rfl : e = r := by simpa [target?, hk, hex] using htarget
      exact he

theorem isGrounded (h : Placed start done (op :: todo) s) :
    op.IsGrounded s.rules := by
  intro hk
  obtain ⟨e, hex⟩ := Option.isSome_iff_exists.mp (h.targeted op List.mem_cons_self hk)
  have htarget : op.target? = some e := (target?_eq_existing hk).trans hex
  refine ⟨e, h.present e (held_cons_todo.mem_iff.mpr ?_), hex⟩
  simp [htarget]

theorem congr (h : Placed start done todo s) (hrules : t.rules = s.rules)
    (hissued : t.issued = s.issued) : Placed start done todo t := by
  refine ⟨h.sound.of_sublist (by rw [hrules]) hissued, h.faithful, h.targeted,
    ?_, h.apart, ?_⟩
  · rw [hrules]
    exact h.present
  · rw [hrules]
    exact h.balance

theorem stop (h : Placed start done todo s) : Placed start done [] s := by
  have hsub : (held done []).Sublist (held done todo) := by
    unfold held targets
    rw [List.filterMap_nil, List.append_nil]
    exact List.sublist_append_left _ _
  exact ⟨h.sound, h.faithful, by simp, fun r hr => h.present r (hsub.subset hr),
    h.apart.sublist (hsub.map _), h.balance⟩

/-- **One operation forwards.** -/
theorem forward (h : Placed start done (c.operation :: todo) s)
    (happlies : Site.Applies c.operation c.applied.id s t) (hc : c.Faithful) :
    Placed start (c :: done) todo t := by
  have hop := h.isGrounded
  have hapart : (ids (c.operation.target?.toList ++ held done todo)).Nodup :=
    (held_cons_todo.map _).nodup_iff.mp h.apart
  have hkept : ∀ r ∈ held done todo, r ∈ s.rules := fun r hr =>
    h.present r (held_cons_todo.mem_iff.mpr (List.mem_append_right _ hr))
  constructor
  · exact happlies.sound h.sound hop
  · intro c' hc'
    rcases List.mem_cons.mp hc' with rfl | hc'
    · exact hc
    · exact h.faithful c' hc'
  · exact fun o ho => h.targeted o (List.mem_cons_of_mem _ ho)
  · intro r hr
    rw [held_cons_done] at hr
    rw [happlies.rules]
    rcases List.mem_append.mp hr with hr | hr
    · exact mem_apply_of_left hop hc (Option.mem_toList.mp hr)
    · exact mem_apply_of_apart hop hkept hapart r hr
  · rw [held_cons_done]
    refine nodup_left hc hapart fun hk hmem => ?_
    obtain ⟨r, hr, hid⟩ := List.mem_map.mp hmem
    exact h.sound.id_notMem (happlies.fresh hk).1 (hid ▸ mem_ids_of_mem (hkept r hr))
  · have hstep := specs_apply_perm c.applied.id h.sound.ids_nodup hop
    have hbalance := h.balance
    rw [← happlies.rules] at hstep
    rw [List.perm_iff_count] at hstep hbalance ⊢
    intro x
    have h₁ := hstep x
    have h₂ := hbalance x
    simp only [List.flatMap_cons, List.count_append] at h₁ h₂ ⊢
    omega

/-- **One operation back.** -/
theorem backward (h : Placed start (c :: done) [] s)
    (happlies : Site.Applies c.inverse id s t) : Placed start done [] t := by
  have hc := h.faithful c List.mem_cons_self
  have hsplit : held (c :: done) [] = c.inverse.target?.toList ++ held done [] := by
    rw [Completed.target?_inverse hc, held_cons_done]
  have hleft : ∀ r, c.left? = some r → r ∈ s.rules := by
    intro r hr
    refine h.present r ?_
    rw [held_cons_done, hr]
    exact List.mem_append_left _ (List.mem_singleton.mpr rfl)
  have hop := Completed.inverse_isGrounded hc hleft
  constructor
  · exact happlies.sound h.sound hop
  · exact fun c' hc' => h.faithful c' (List.mem_cons_of_mem _ hc')
  · exact h.targeted
  · rw [happlies.rules]
    have hapart := h.apart
    rw [hsplit] at hapart
    refine mem_apply_of_apart hop (fun r hr => h.present r ?_) hapart
    rw [hsplit]
    exact List.mem_append_right _ hr
  · refine h.apart.sublist (List.Sublist.map _ ?_)
    rw [hsplit]
    exact List.sublist_append_right _ _
  · have hstep := specs_apply_perm id h.sound.ids_nodup hop
    have hbalance := h.balance
    rw [← happlies.rules, Completed.taken_inverse hc, Completed.given_inverse hc] at hstep
    rw [List.perm_iff_count] at hstep hbalance ⊢
    intro x
    have h₁ := hstep x
    have h₂ := hbalance x
    simp only [List.flatMap_cons, List.count_append] at h₁ h₂ ⊢
    omega

end Placed

/-! ## What an execution has made of the reservations -/

/-- The reservations after an operation: the port of a deleted rule is given back,
unless it is needed. -/
def giveBack (needed : List UInt16) (r : Reservations) (op : Operation) :
    Reservations :=
  if op.kind = .delete ∧ op.slot.external ∉ needed then
    r.release op.rule.owner.key op.slot.external
  else r

def returned? (needed : List UInt16) (r : Reservations) (op : Operation) :
    Option UInt16 :=
  if (op.kind = .delete ∧ op.slot.external ∉ needed) ∧
      r.holder? op.slot.external = some op.rule.owner.key then
    some op.slot.external
  else none

/-- **After the operations `done`, the latest first**, their ports are given back,
and beside each operation stands what went with it. -/
inductive Ledger (needed : List UInt16) (start : Reservations) :
    List Completed → Reservations → Prop where
  | nil {r : Reservations} (now : r.Alike start) : Ledger needed start [] r
  | cons {c : Completed} {cs : List Completed} {before r : Reservations}
      (earlier : Ledger needed start cs before)
      (now : r.Alike (giveBack needed before c.operation))
      (note : c.released = returned? needed before c.operation) :
      Ledger needed start (c :: cs) r

section

variable {needed : List UInt16} {first r r' before : Reservations}

theorem giveBack_alike (h : r.Alike r') :
    (giveBack needed r op).Alike (giveBack needed r' op) := by
  unfold giveBack
  split
  · exact h.release
  · exact h

/-- An operation by which nobody loses a port leaves the reservations as
they were. -/
theorem giveBack_of_returned?_none (h : returned? needed r op = none) :
    (giveBack needed r op).Alike r := by
  intro p
  unfold returned? at h
  unfold giveBack
  by_cases hgone : op.kind = .delete ∧ op.slot.external ∉ needed
  · rw [if_pos hgone, Reservations.holder?_release]
    by_cases hp : p = op.slot.external ∧ r.holder? p = some op.rule.owner.key
    · obtain ⟨rfl, hholder⟩ := hp
      rw [if_pos ⟨hgone, hholder⟩] at h
      exact absurd h (by simp)
    · rw [if_neg hp]
  · rw [if_neg hgone]

/-- The port that somebody loses by an operation is that of a deleted rule. -/
theorem returned?_eq_some {port : UInt16} (h : returned? needed r op = some port) :
    op.kind = .delete ∧ op.slot.external = port := by
  unfold returned? at h
  split at h
  · next hgone => exact ⟨hgone.1.1, Option.some.inj h⟩
  · exact absurd h (by simp)

theorem giveBack_of_returned?_some {port : UInt16}
    (h : returned? needed r op = some port) :
    r.holder? port = some op.rule.owner.key ∧
      ∀ p, (giveBack needed r op).holder? p =
        if p = port then none else r.holder? p := by
  unfold returned? at h
  split at h
  · next hgone =>
      obtain rfl := Option.some.inj h
      refine ⟨hgone.2, fun p => ?_⟩
      unfold giveBack
      rw [if_pos hgone.1, Reservations.holder?_release]
      by_cases hp : p = op.slot.external
      · rw [if_pos ⟨hp, hp ▸ hgone.2⟩, if_pos hp]
      · rw [if_neg fun hboth => hp hboth.1, if_neg hp]
  · exact absurd h (by simp)

namespace Ledger

theorem congr (h : Ledger needed first done r) (halike : r'.Alike r) :
    Ledger needed first done r' := by
  cases h with
  | nil now => exact .nil (halike.trans now)
  | cons earlier now note => exact .cons earlier (halike.trans now) note

/-- **The reservations are those at the start, less what the operations
gave back.** -/
theorem alike (h : Ledger needed first done r) :
    r.Alike ((done.reverse.map Completed.operation).foldl
      (giveBack needed) first) := by
  induction h with
  | nil now => exact now
  | cons earlier now note ih =>
      rw [List.reverse_cons, List.map_append, List.foldl_append]
      exact now.trans (giveBack_alike ih)

end Ledger

theorem releaseUnused_leads {denying : Prop} {released : Option UInt16}
    (h : Leads (Site.May denying) (releaseUnused needed op) s released t) :
    released = returned? needed s.memory.reservations op ∧
      t.memory.reservations = giveBack needed s.memory.reservations op ∧
      t.rules = s.rules ∧ t.issued = s.issued ∧ t.stopped = s.stopped := by
  unfold releaseUnused at h
  unfold returned? giveBack
  by_cases hkeep : op.kind ≠ .delete ∨ needed.contains op.slot.external
  · rw [if_pos hkeep] at h
    obtain ⟨rfl, rfl⟩ := leads_done.mp h
    have hgone : ¬(op.kind = .delete ∧ op.slot.external ∉ needed) := by
      rintro ⟨hk, hnot⟩
      rcases hkeep with hne | hmem
      · exact hne hk
      · exact hnot (List.contains_iff_mem.mp hmem)
    rw [if_neg hgone, if_neg fun hboth => hgone hboth.1]
    exact ⟨rfl, rfl, rfl, rfl, rfl⟩
  · rw [if_neg hkeep] at h
    have hgone : op.kind = .delete ∧ op.slot.external ∉ needed := by
      refine ⟨?_, fun hmem => hkeep (Or.inr (List.contains_iff_mem.mpr hmem))⟩
      by_contra hne
      exact hkeep (Or.inl hne)
    obtain ⟨held, s', hrelease, hrest⟩ := leads_bind.mp h
    obtain ⟨now, rfl, rfl⟩ := leads_memory.mp hrelease
    rw [if_pos hgone]
    by_cases hholder : s.memory.reservations.holder? op.slot.external =
      some op.rule.owner.key
    · simp only [MemoryCall.answer, hholder, decide_true, if_true] at hrest
      obtain ⟨rfl, rfl⟩ := leads_done.mp hrest
      rw [if_pos ⟨hgone, hholder⟩]
      exact ⟨rfl, rfl, rfl, rfl, rfl⟩
    · simp only [MemoryCall.answer, hholder, decide_false] at hrest
      obtain ⟨rfl, rfl⟩ := leads_done.mp hrest
      rw [if_neg fun hboth => hholder hboth.2]
      exact ⟨rfl, rfl, rfl, rfl, rfl⟩

/-- **What went with an operation comes back when it is undone.** -/
theorem reclaim_leads {denying : Prop} {u : Unit}
    (hledger : Ledger needed first (c :: done) s.memory.reservations)
    (h : Leads (Site.May denying) c.reclaim s u t) :
    Ledger needed first done t.memory.reservations ∧
      t.rules = s.rules ∧ t.issued = s.issued ∧ t.stopped = s.stopped := by
  obtain ⟨-⟩ | ⟨earlier, now, note⟩ := hledger
  unfold Completed.reclaim at h
  cases hreleased : c.released with
  | none =>
      rw [hreleased] at h note
      obtain ⟨-, rfl⟩ := leads_done.mp h
      exact ⟨earlier.congr (now.trans (giveBack_of_returned?_none note.symm)),
        rfl, rfl, rfl⟩
  | some port =>
      rw [hreleased] at h note
      obtain ⟨reply, s', hclaim, hrest⟩ := leads_bind.mp h
      obtain ⟨-, rfl⟩ := leads_done.mp hrest
      obtain ⟨instant, -, rfl⟩ := leads_memory.mp hclaim
      obtain ⟨hbefore, hafter⟩ := giveBack_of_returned?_some note.symm
      -- nobody else has taken the port in the meantime
      have hfree : s.memory.reservations.holder? port = none := by
        rw [now port, hafter port, if_pos rfl]
      obtain ⟨r', hr'⟩ :
        ∃ r', s.memory.reservations.claim c.operation.rule.owner.key [port] =
          .ok r' := Reservations.exists_claim (by simp [hfree])
      have hholders := (Reservations.holder?_of_claim hr').2
      simp only [MemoryCall.answer, hr']
      refine ⟨earlier.congr fun p => ?_, trivial, trivial, trivial⟩
      rw [hholders p, now p, hafter p]
      by_cases hp : p = port
      · simp [hp, hbefore]
      · simp [hp]

end

end Plan

end PortForwarding
