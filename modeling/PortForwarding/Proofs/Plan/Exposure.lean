import PortForwarding.Proofs.Plan.Fading
import PortForwarding.Proofs.Script.Amid

/-!
# A site with rules that may be taken

An `Exposed` site notes which rules a plan has written and not yet come back to.
Any of these may be taken by somebody else before any call is answered
(`Exposed.May`). Calls fail as they like until the plan is stopped; what is done
to undo it fails only where a rule is not there.

`Plan.Survives` is the invariant of a plan on such a site. It is kept when rules
are taken, and by operations forwards and back (`Survives.loses`, `forward`,
`back`, `pass`).
-/

namespace PortForwarding

open Listing Script Operation

/-! ## A site with rules that may be taken -/

namespace Site

variable {denying : Prop} {s t : Site} {id : String}

def losing (gone : List String) (s : Site) : Site :=
  { s with rules := withoutAll gone s.rules }

def Retired (id : String) (s : Site) : Prop :=
  id ∈ s.issued ∧ id ∉ ids s.rules

theorem Retired.losing (hs : s.Retired id) (gone : List String) :
    (s.losing gone).Retired id :=
  ⟨hs.1, fun hmem => hs.2 (mem_ids_withoutAll.mp hmem).1⟩

/-- **An identifier that is retired stays retired**, whatever is asked of
the site. -/
theorem Retired.step {request : Request} {reply : request.Reply} (hs : s.Retired id)
    (h : May denying s request reply t) : t.Retired id := by
  have hsame : ∀ u : Site, ids u.rules = ids s.rules → u.issued = s.issued →
      u.Retired id := by
    intro u hids hissued
    unfold Retired
    rwa [hids, hissued]
  cases request with
  | router call =>
      cases call with
      | list =>
          obtain ⟨rfl, -⟩ := may_list h
          exact hs
      | add spec =>
          rcases may_add h with ⟨rule, -, -, hid, rfl⟩ | ⟨e, -, rfl⟩
          · refine ⟨List.mem_cons_of_mem _ hs.1, fun hmem => ?_⟩
            unfold ids at hmem
            rw [List.map_append, List.mem_append] at hmem
            rcases hmem with hmem | hmem
            · exact hs.2 hmem
            · exact hid (List.mem_singleton.mp hmem ▸ hs.1)
          · exact hsame _ rfl rfl
      | update id' spec =>
          rcases may_update h with ⟨-, -, rfl⟩ | ⟨e, -, -, rfl⟩
          · exact hsame _ ids_overwrite rfl
          · exact hsame _ rfl rfl
      | remove id' =>
          rcases may_remove h with ⟨-, -, rfl⟩ | ⟨e, -, -, rfl⟩
          · exact ⟨hs.1, fun hmem => hs.2 (ids_without_sublist.subset hmem)⟩
          · exact hsame _ rfl rfl
      | ready =>
          obtain rfl : t = s := h
          exact hs
  | memory call =>
      obtain ⟨now, -, rfl⟩ := h
      exact hsame _ rfl rfl
  | cancelled =>
      obtain rfl : t = { s with stopped := s.stopped || reply } := h
      exact hsame _ rfl rfl
  | store _ | publish _ _ | now | lock _ | unlock _ =>
      obtain rfl : t = s := h
      exact hs

theorem Applies.issued_subset {op : Operation} (h : Applies op id s t) :
    s.issued ⊆ t.issued := by
  by_cases hk : op.kind = .create
  · rw [(h.fresh hk).2]
    exact List.subset_cons_self _ _
  · rw [h.issued hk]
    exact List.Subset.refl _

end Site

/-- What is left to undo stays the same, where the rules that it is about do, and
none that is retired comes back. -/
theorem Completed.faded_eq {done : List Completed} {s t : Site}
    (hdone : ∀ c ∈ done, c.Faithful)
    (hissued : ∀ id ∈ ids (lefts done), id ∈ s.issued)
    (hpresent : ∀ r ∈ lefts (faded s.rules done), r ∈ t.rules)
    (hretired : ∀ id, s.Retired id → t.Retired id) :
    faded t.rules done = faded s.rules done := by
  refine faded_congr fun r hr => ⟨fun hmem => ?_, fun hmem => ?_⟩
  · by_contra hlost
    exact (hretired r.id ⟨hissued r.id (mem_ids_of_mem hr), hlost⟩).2 hmem
  · refine mem_ids_of_mem (hpresent r ?_)
    rw [lefts_faded hdone, List.mem_filter]
    exact ⟨hr, decide_eq_true hmem⟩

/-- A site, and those of its rules that somebody else may take. -/
structure Exposed where
  site : Site
  /-- The identifiers of the rules that were written and not addressed since to
  be undone. -/
  written : List String

namespace Exposed

def Loses (s t : Exposed) : Prop :=
  ∃ gone, gone ⊆ s.written ∧ t = { s with site := s.site.losing gone }

/-- What is done to undo a plan fails only where a rule is not there. -/
def Yields (s : Site) : (request : Request) → request.Reply → Prop
  | .router (.add _), .error _ => s.stopped = false
  | .router (.update id _), .error e | .router (.remove id), .error e =>
    s.stopped = true → id ∉ ids s.rules ∧ ∃ what, e = .notFound what
  | _, _ => True

/-- The rules that may be taken after a call. What a plan writes may be taken, up
to the call that is to undo it. -/
def noted (s : Exposed) : (request : Request) → request.Reply → List String
  | .router (.add _), .ok rule =>
    if s.site.stopped then s.written else rule.id :: s.written
  | .router (.update id _), .ok _ =>
    if s.site.stopped then s.written.filter fun i => decide (i ≠ id) else id :: s.written
  | .router (.update id _), .error _ | .router (.remove id), _ =>
    if s.site.stopped then s.written.filter fun i => decide (i ≠ id) else s.written
  | _, _ => s.written

def Answers : Possible Exposed := fun s request reply t =>
  Site.May True s.site request reply t.site ∧ Yields s.site request reply ∧
    t.written = s.noted request reply

/-- **Any call may be answered after rules were taken.** -/
def May : Possible Exposed :=
  Amid Loses Answers

variable {s t u : Exposed} {id : String}

theorem Loses.refl (s : Exposed) : s.Loses s := by
  refine ⟨[], List.nil_subset _, ?_⟩
  have hall : withoutAll [] s.site.rules = s.site.rules :=
    List.filter_eq_self.mpr fun r _ => by simp
  unfold Site.losing
  rw [hall]

theorem Loses.stopped (h : s.Loses t) : t.site.stopped = s.site.stopped := by
  obtain ⟨gone, -, rfl⟩ := h
  rfl

theorem Loses.retired (h : s.Loses t) (hs : s.site.Retired id) :
    t.site.Retired id := by
  obtain ⟨gone, -, rfl⟩ := h
  exact hs.losing gone

def OnlyMemory : Request → Prop
  | .memory _ => True
  | _ => False

theorem retired_run {α : Type} {script : Script α} {a : α} (hs : s.site.Retired id)
    (h : Leads May script s a t) : t.site.Retired id := by
  refine h.preserves (P := fun s => s.site.Retired id) ?_ hs
  rintro s r reply t hs ⟨u, hloses, hmay, -, -⟩
  exact (hloses.retired hs).step hmay

end Exposed

namespace Plan

open Completed Exposed

section

variable {start : List RouterRule} {done : List Completed} {todo : List Operation}
  {c d : Completed} {op : Operation} {s t u : Exposed} {id : String}

/-- **After the operations `done`, the latest first, and before the operations
`todo`**, what is left of what was done is placed on the site, and nothing can be
taken but what was written. -/
structure Survives (start : List RouterRule) (done : List Completed)
    (todo : List Operation) (s : Exposed) : Prop where
  faithful : ∀ c ∈ done, c.Faithful
  placed : Placed start (faded s.site.rules done) todo s.site
  issued : ∀ id ∈ ids (lefts done), id ∈ s.site.issued
  written : ∀ id ∈ s.written, id ∈ s.site.issued ∧
    (id ∈ ids s.site.rules → id ∈ ids (lefts done))

namespace Survives

theorem congr (h : Survives start done todo s) (hrules : t.site.rules = s.site.rules)
    (hissued : t.site.issued = s.site.issued) (hwritten : t.written ⊆ s.written) :
    Survives start done todo t := by
  refine ⟨h.faithful, ?_, ?_, fun id hid => ?_⟩
  · rw [hrules]
    exact h.placed.congr hrules hissued
  · rw [hissued]
    exact h.issued
  · rw [hissued, hrules]
    exact h.written id (hwritten hid)

theorem loses (h : Survives start done todo s) (hloses : s.Loses t) :
    Survives start done todo t := by
  obtain ⟨gone, hgone, rfl⟩ := hloses
  refine ⟨h.faithful, ?_, h.issued, fun id hid => ?_⟩
  · exact h.placed.vanish h.faithful (fun id hid => (h.written id (hgone hid)).2) rfl rfl
  · obtain ⟨hissued, hleft⟩ := h.written id hid
    exact ⟨hissued, fun hmem => hleft (mem_ids_withoutAll.mp hmem).1⟩

/-- **One operation forwards.** -/
theorem forward (h : Survives start done (c.operation :: todo) s)
    (happlies : Site.Applies c.operation c.applied.id s.site t.site)
    (hc : c.Faithful) (hretired : ∀ id, s.site.Retired id → t.site.Retired id)
    (hwritten : ∀ id ∈ t.written, id ∈ s.written ∨ ∃ r, c.left? = some r ∧
      r.id = id) :
    Survives start (c :: done) todo t := by
  have hplaced := h.placed.forward happlies hc
  have hpresent : ∀ r ∈ held (c :: faded s.site.rules done) todo, r ∈ t.site.rules :=
    hplaced.present
  rw [held_cons_done] at hpresent
  have hleft : ∀ r, c.left? = some r → r ∈ t.site.rules := by
    intro r hr
    exact hpresent r (List.mem_append_left _ (Option.mem_toList.mpr hr))
  have hsame : faded t.site.rules done = faded s.site.rules done :=
    faded_eq h.faithful h.issued
      (fun r hr =>
        hpresent r (List.mem_append_right _ (List.mem_append_left _ hr))) hretired
  have hnow : c.faded? t.site.rules = some c := by
    unfold faded? stays
    cases hx : c.left? with
    | none => rfl
    | some r => simp [mem_ids_of_mem (hleft r hx)]
  refine ⟨?_, ?_, ?_, ?_⟩
  · intro c' hc'
    rcases List.mem_cons.mp hc' with rfl | hc'
    · exact hc
    · exact h.faithful c' hc'
  · rw [faded_cons hnow, hsame]
    exact hplaced
  · intro id hid
    rcases mem_ids_lefts_cons.mp hid with ⟨r, hr, rfl⟩ | hid
    · exact hplaced.sound.ids_issued _ (mem_ids_of_mem (hleft r hr))
    · exact happlies.issued_subset (h.issued id hid)
  · intro id hid
    rcases hwritten id hid with hid | ⟨r, hr, rfl⟩
    · obtain ⟨hissued, hmem⟩ := h.written id hid
      refine ⟨happlies.issued_subset hissued, fun hthere => ?_⟩
      refine mem_ids_lefts_cons.mpr (Or.inr (hmem ?_))
      by_contra hlost
      exact (hretired id ⟨hissued, hlost⟩).2 hthere
    · have hmem := mem_ids_of_mem (hleft r hr)
      exact ⟨hplaced.sound.ids_issued _ hmem,
        fun _ => mem_ids_lefts_cons.mpr (Or.inl ⟨r, hr, rfl⟩)⟩

/-- **One operation back**, or what was left of it. -/
theorem back (h : Survives start (c :: done) [] s)
    (hd : c.faded? s.site.rules = some d)
    (happlies : Site.Applies d.inverse id s.site t.site)
    (hretired : ∀ id, s.site.Retired id → t.site.Retired id)
    (hwritten : ∀ i ∈ t.written, i ∈ s.written ∧
      ∀ r, c.left? = some r → r.id ∈ ids s.site.rules → r.id ≠ i) :
    Survives start done [] t := by
  have hbefore := h.placed
  rw [faded_cons hd] at hbefore
  have hplaced := hbefore.backward happlies
  have hdone : ∀ c ∈ done, c.Faithful := fun c' hc' =>
    h.faithful c' (List.mem_cons_of_mem _ hc')
  have hissued : ∀ id ∈ ids (lefts done), id ∈ s.site.issued :=
    fun id hid => h.issued id (mem_ids_lefts_cons.mpr (Or.inr hid))
  refine ⟨hdone, ?_, fun id hid => happlies.issued_subset (hissued id hid),
    fun i hi => ?_⟩
  · have hpresent : ∀ r ∈ lefts (faded s.site.rules done), r ∈ t.site.rules :=
      fun r hr => hplaced.present r (List.mem_append_left _ hr)
    rwa [faded_eq hdone hissued hpresent hretired]
  · obtain ⟨hold, hother⟩ := hwritten i hi
    obtain ⟨hid, hmem⟩ := h.written i hold
    refine ⟨happlies.issued_subset hid, fun hthere => ?_⟩
    have hbefore : i ∈ ids s.site.rules := by
      by_contra hlost
      exact (hretired i ⟨hid, hlost⟩).2 hthere
    rcases mem_ids_lefts_cons.mp (hmem hbefore) with ⟨r, hr, rfl⟩ | hleft
    · exact absurd rfl (hother r hr hbefore)
    · exact hleft

theorem pass (h : Survives start (c :: done) [] s)
    (hc : c.faded? s.site.rules = none) : Survives start done [] s := by
  have hplaced := h.placed
  rw [faded_cons_none hc] at hplaced
  refine ⟨fun c' hc' => h.faithful c' (List.mem_cons_of_mem _ hc'), hplaced,
    fun id hid => h.issued id (mem_ids_lefts_cons.mpr (Or.inr hid)), fun id hid => ?_⟩
  obtain ⟨hissued, hmem⟩ := h.written id hid
  refine ⟨hissued, fun hthere => ?_⟩
  rcases mem_ids_lefts_cons.mp (hmem hthere) with ⟨r, hr, rfl⟩ | hleft
  · have hnow := faded?_of_mem hr hthere
    exact absurd (hnow.symm.trans hc) (by simp)
  · exact hleft

end Survives

end

end Plan

end PortForwarding
