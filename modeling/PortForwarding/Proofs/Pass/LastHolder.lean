import PortForwarding.Proofs.Pass.Event
import PortForwarding.Proofs.Pass.Fleet
import PortForwarding.Proofs.Pass.Reconcile

/-!
# Who had the lock last

One pass against drift beside passes after events for one Service, however their
steps come together, as long as nothing fails. When both have come to their ends,
the Service owns what the agent took it to want that had its lock last
(`owned_of_last_holder`). To the passes after events that is what its newest
version wants, and nothing once it is being deleted. To the pass against drift it
is what the Service wanted when it was listed: under the lock only the router is
looked at again, and not the Service.
-/

namespace PortForwarding

open Listing Script Shared

/-- Passes after events for one Service: one for each version in turn, the
newest last. -/
def Reconcile.passes (settings : CleanupSettings) (defaults : RuleDefaults) :
    List ServiceObject → ServiceObject → Script (Except PassFailure Action)
  | [], newest => (pass settings defaults newest).run
  | version :: versions, newest => do
    if let .error failure ← (pass settings defaults version).run then
      let _ ← afterFailure version failure
    passes settings defaults versions newest

namespace Territory

variable {T : Territory} {listed : List ServiceObject} {me : Agent} {s t : Shared}
  {settings : CleanupSettings} {defaults : RuleDefaults} {view : ServiceView}
  {earlier : List ServiceObject} {newest : ServiceObject}

theorem Came.rely {r : Except PassFailure Action}
    (h : T.Came me settings defaults view r s) (hrely : T.Rely me s t) :
    T.Came me settings defaults view r t := by
  refine ⟨hrely.orderly h.orderly, fun hr desired hbrings => ?_⟩
  obtain ⟨hknown, hleaves⟩ := h.settled hr desired hbrings
  exact ⟨hrely.known hknown, hleaves.spares hrely.toSpares⟩

/-- **What comes of the passes after events** is what comes of the last of them. -/
theorem passes_keeps
    (hversions : ∀ version ∈ newest :: earlier, ∀ view, ServiceView.of? version =
      .ok view → view.key = T.key ∧ T.Home defaults view T.zone)
    (hs : T.Orderly s) :
    T.Keeps listed me (fun r t => T.Orderly t ∧
      ∀ view, ServiceView.of? newest = .ok view →
      T.Came me settings defaults view r t)
      (Reconcile.passes settings defaults earlier newest) s := by
  induction earlier generalizing s with
  | nil => exact pass_keeps (hversions newest List.mem_cons_self) hs
  | cons version earlier ih =>
      have hlater : ∀ later ∈ newest :: earlier, ∀ view,
          ServiceView.of? later = .ok view →
            view.key = T.key ∧ T.Home defaults view T.zone := by
        intro later hmem
        refine hversions later ?_
        rcases List.mem_cons.mp hmem with rfl | hmem
        · exact List.mem_cons_self
        · exact List.mem_cons_of_mem _ (List.mem_cons_of_mem _ hmem)
      have hversion : version ∈ newest :: version :: earlier :=
        List.mem_cons_of_mem _ List.mem_cons_self
      have hnow : T.Keeps listed me _ (Reconcile.pass settings defaults version).run s :=
        pass_keeps (hversions version hversion) hs
      refine hnow.andThen ?_
      rintro r s₁ ⟨hs₁, -⟩
      cases r with
      | ok action => exact ih hlater hs₁
      | error failure =>
          refine quiet_andThen (asks_afterFailure version failure) fun _ s₂ hrely => ?_
          exact ih hlater (hrely.orderly hs₁)

end Territory

open Territory

variable {T : Territory} {listed : List ServiceObject} {s t : Shared}
  {settings : CleanupSettings} {defaults : RuleDefaults} {view : ServiceView}
  {earlier : List ServiceObject} {newest : ServiceObject} {wanted : List DesiredRule}
  {summary : Except FleetError PassSummary}

/-- **The Service owns what the agent took it to want that had its lock last**:
the passes after events what the newest version wants, the pass against drift what
a listed version wanted. -/
theorem owned_of_last_holder
    (hlisted : ∀ view ∈ Fleet.managed listed, ∃ side, T.Home defaults view side)
    (hversions : ∀ version ∈ newest :: earlier, ∀ view, ServiceView.of? version =
      .ok view → view.key = T.key ∧ T.Home defaults view T.zone)
    (hnewest : ServiceView.of? newest = .ok view)
    (hbrings : Brings settings defaults view wanted) (hs : T.Orderly s)
    (hfree : s.last T.key = none)
    (h : Interleaved (May listed .event) (May listed .periodic) (Reconcile.passes
      settings defaults earlier newest) (Fleet.pass defaults).run s
      (.ok .awaitChange) summary t) :
    (t.last T.key = some .event ∧ Converged T.key wanted t.site.rules) ∨
    (t.last T.key = some .periodic ∧
      ∃ desired, AsListed defaults listed T.key desired ∧
        Converged T.key desired t.site.rules) := by
  have hevents : T.Keeps listed .event _ (Reconcile.passes settings defaults
      earlier newest) s :=
    passes_keeps hversions hs
  have hpass : T.Keeps listed .periodic _ (Fleet.pass defaults).run s :=
    fleetPass_keeps hlisted hs (by simp [hfree])
  obtain ⟨⟨horderly, hcame⟩, hlast⟩ :=
    h.of_ensures hevents hpass Rely.refl Rely.refl Rely.trans
    Rely.trans (fun ha hrely => ⟨hrely.orderly ha.1, fun v hv => (ha.2 v hv).rely hrely⟩)
    (fun ha hrely => ha.spares hrely.toSpares) id id
  obtain ⟨hknown, hleaves⟩ := (hcame view hnewest).settled rfl wanted hbrings
  -- nothing that the Service owns is off its territory
  have hall : ∀ {desired}, Converged T.key desired (within T.zone t.site.rules) →
      Converged T.key desired t.site.rules := by
    intro desired hconverged
    refine hconverged.of_specs_perm ?_
    rw [ownedRules_within fun r hr => (horderly.fits r hr).own]
  cases hholder : t.last T.key with
  | none => exact absurd hholder hknown
  | some agent =>
      cases agent with
      | event =>
          obtain ⟨desired, hdesired, hconverged⟩ := hleaves.settled hholder
          rw [hbrings.unique hdesired]
          exact Or.inl ⟨rfl, hall hconverged⟩
      | periodic =>
          obtain ⟨desired, hdesired, hconverged⟩ := hlast.settled hholder
          exact Or.inr ⟨rfl, desired, hdesired, hall hconverged⟩

end PortForwarding

/-! ## A destination that is changed under way -/

namespace PortForwarding.Sample

open Listing Script Shared Territory

def attend (listed : List ServiceObject) (me : Agent) : Attending Shared
  | .router .list, s => some (.ok s.site.rules, s)
  | .router (.add spec), s =>
    let rule : RouterRule := ⟨fresh (s.site.issued.length + 1), spec⟩
    if rule.id ∈ s.site.issued then none
    else some (.ok rule, { s with site := { s.site with
      rules := s.site.rules ++ [rule], issued := rule.id :: s.site.issued } })
  | .router (.update id spec), s =>
    if id ∈ ids s.site.rules then
      some (.ok ⟨id, spec⟩, { s with site := { s.site with
        rules := overwrite id spec s.site.rules } })
    else none
  | .router (.remove id), s =>
    if id ∈ ids s.site.rules then
      some (.ok (), { s with site := { s.site with rules := without id s.site.rules } })
    else none
  | .router .ready, s => some (.ok true, s)
  | .store .list, s => some (.ok listed, s)
  | .store (.get _), _ => none
  | .store (.patch _ _), s => some (.ok (), s)
  | .memory call, s =>
    let (reply, memory) := call.answer 0 s.site.memory
    some (reply, { s with site := { s.site with memory := memory } })
  | .publish _ _, s => some ((), s)
  | .cancelled, s => some (false, s)
  | .now, s => some (.midnight .epoch, s)
  | .lock key, s =>
    if s.holder key = none then
      some ((), { s with
        holder := Function.update s.holder key (some me)
        last := Function.update s.last key (some me) })
    else none
  | .unlock key, s => some ((), { s with holder := Function.update s.holder key none })

theorem may_attend {listed : List ServiceObject} {me : Agent} {r : Request}
    {s t : Shared} {reply : r.Reply}
    (h : attend listed me r s = some (reply, t)) : May listed me s r reply t := by
  cases r with
  | router call =>
      cases call with
      | list =>
          obtain ⟨rfl, rfl⟩ := Prod.mk.inj (Option.some.inj h)
          exact ⟨trivial, ⟨rfl, rfl⟩, rfl, rfl⟩
      | add spec =>
          obtain ⟨hfresh, h⟩ := Option.ite_none_left_eq_some.mp h
          obtain ⟨rfl, rfl⟩ := Prod.mk.inj (Option.some.inj h)
          exact ⟨trivial, ⟨rfl, hfresh, rfl⟩, rfl, rfl⟩
      | update id spec =>
          obtain ⟨hid, h⟩ := Option.ite_none_right_eq_some.mp h
          obtain ⟨rfl, rfl⟩ := Prod.mk.inj (Option.some.inj h)
          exact ⟨trivial, ⟨rfl, hid, rfl⟩, rfl, rfl⟩
      | remove id =>
          obtain ⟨hid, h⟩ := Option.ite_none_right_eq_some.mp h
          obtain ⟨rfl, rfl⟩ := Prod.mk.inj (Option.some.inj h)
          exact ⟨trivial, ⟨hid, rfl⟩, rfl, rfl⟩
      | ready =>
          obtain ⟨rfl, rfl⟩ := Prod.mk.inj (Option.some.inj h)
          exact ⟨trivial, rfl, rfl, rfl⟩
  | store call =>
      cases call with
      | list =>
          obtain ⟨rfl, rfl⟩ := Prod.mk.inj (Option.some.inj h)
          exact ⟨rfl, rfl, rfl, rfl⟩
      | get key => exact absurd h (by simp [attend])
      | patch key change =>
          obtain ⟨rfl, rfl⟩ := Prod.mk.inj (Option.some.inj h)
          exact ⟨trivial, rfl, rfl, rfl⟩
  | memory call =>
      obtain ⟨rfl, rfl⟩ := Prod.mk.inj (Option.some.inj h)
      exact ⟨trivial, ⟨0, rfl, rfl⟩, rfl, rfl⟩
  | publish object note =>
      obtain ⟨rfl, rfl⟩ := Prod.mk.inj (Option.some.inj h)
      exact ⟨trivial, rfl, rfl, rfl⟩
  | cancelled =>
      obtain ⟨rfl, rfl⟩ := Prod.mk.inj (Option.some.inj h)
      exact ⟨rfl, by simp [Site.May], rfl, rfl⟩
  | now =>
      obtain ⟨rfl, rfl⟩ := Prod.mk.inj (Option.some.inj h)
      exact ⟨trivial, rfl, rfl, rfl⟩
  | lock key =>
      obtain ⟨hfree, h⟩ := Option.ite_none_right_eq_some.mp h
      obtain ⟨rfl, rfl⟩ := Prod.mk.inj (Option.some.inj h)
      exact ⟨hfree, rfl⟩
  | unlock key =>
      obtain ⟨rfl, rfl⟩ := Prod.mk.inj (Option.some.inj h)
      exact rfl

def moved : ServiceObject :=
  { service with ingress := [some "10.0.0.6"] }

def movedView : ServiceView :=
  { view with destination := some (.v4 10 0 0 6) }

def movedWish : DesiredRule :=
  { wish "http" 80 80 with
    spec := { (wish "http" 80 80).spec with destination := .v4 10 0 0 6 } }

def bare : Shared :=
  { site := ⟨[], [], .empty, false⟩, holder := fun _ => none, last := fun _ => none }

def everywhere : Territory :=
  { key := key, zone := fun _ => true, others := [], key_notMem := List.not_mem_nil }

/-- The pass against drift lists the Services; then the pass after the edit has
all its turns, from the claim of the port to the unlock; then the pass against
drift lists the router and goes on. -/
def turns : List Bool :=
  false :: List.replicate 12 true ++ List.replicate 12 false

theorem exists_overlap : ∃ summary t,
    weave (attend [service] .event) (attend [service] .periodic) turns
      (Reconcile.passes {} {} [] moved) (Fleet.pass {}).run bare =
        some (.ok .awaitChange, .ok summary, t) ∧
    t.site.rules = [⟨"i", (wish "http" 80 80).spec⟩] ∧
    t.last key = some .periodic := by
  generalize hrun : weave (attend [service] .event) (attend [service] .periodic) turns
    (Reconcile.passes {} {} [] moved) (Fleet.pass {}).run bare = run
  have hseen : run.map (fun r => (r.1, r.2.1.isOk, r.2.2.site.rules, r.2.2.last key)) =
      some (.ok .awaitChange, true, [⟨"i", (wish "http" 80 80).spec⟩],
          some .periodic) := by
    rw [← hrun]
    decide +kernel
  obtain ⟨⟨result, summary, t⟩, rfl, heq⟩ := Option.map_eq_some_iff.mp hseen
  obtain ⟨rfl, hok, hrules, hlast⟩ : result = .ok .awaitChange ∧ summary.isOk = true ∧
      t.site.rules = [⟨"i", (wish "http" 80 80).spec⟩] ∧ t.last key = some .periodic := by
    simpa using heq
  cases summary with
  | ok summary => exact ⟨summary, t, rfl, hrules, hlast⟩
  | error e => exact absurd hok (by simp [Except.isOk, Except.toBool])

theorem service_home : everywhere.Home {} view everywhere.zone :=
  ⟨key_valid, Or.inl ⟨rfl, rfl⟩, fun _ _ _ _ => rfl⟩

theorem moved_home : everywhere.Home {} movedView everywhere.zone :=
  ⟨key_valid, Or.inl ⟨rfl, rfl⟩, fun _ _ _ _ => rfl⟩

theorem moved_brings : Brings {} {} movedView [movedWish] :=
  .converged rfl (by decide) rfl rfl

end PortForwarding.Sample

namespace PortForwarding

open Listing Script Shared Territory Sample

theorem owned_of_last_holder_overlap : ∃ summary t,
    Interleaved (May [service] .event) (May [service] .periodic)
      (Reconcile.passes {} {} [] moved) (Fleet.pass {}).run bare
        (.ok .awaitChange) summary t ∧
    ((t.last key = some .event ∧ Converged key [movedWish] t.site.rules) ∨
      (t.last key = some .periodic ∧
        ∃ desired, AsListed {} [service] key desired ∧
          Converged key desired t.site.rules)) := by
  obtain ⟨summary, t, hweave, -, -⟩ := exists_overlap
  have hrun := interleaved_weave may_attend may_attend hweave
  refine ⟨_, t, hrun,
    owned_of_last_holder (T := everywhere) ?_ ?_ rfl moved_brings ?_ rfl hrun⟩
  · intro view hview
    have hmanaged : Fleet.managed [service] = [Sample.view] := rfl
    rw [hmanaged] at hview
    obtain rfl := List.mem_singleton.mp hview
    exact ⟨everywhere.zone, service_home⟩
  · intro version hversion view hview
    obtain rfl := List.mem_singleton.mp hversion
    obtain rfl : movedView = view := Except.ok.inj hview
    exact ⟨rfl, moved_home⟩
  · exact ⟨⟨List.nodup_nil, nofun⟩, nofun⟩

/-- **The pass against drift undoes what a later edit has brought.** The Services
are listed before the edit; the pass after the edit is carried out to its end, and
the router is as the newest version wants it; then the pass against drift gets the
lock, and puts back what the listed version wanted. -/
theorem overlap_undoes : ∃ summary t,
    weave (attend [service] .event) (attend [service] .periodic) turns
      (Reconcile.passes {} {} [] moved) (Fleet.pass {}).run bare =
        some (.ok .awaitChange, .ok summary, t) ∧
    Interleaved (May [service] .event) (May [service] .periodic)
      (Reconcile.passes {} {} [] moved) (Fleet.pass {}).run bare
        (.ok .awaitChange) (.ok summary) t ∧
    ServiceView.of? moved = .ok movedView ∧ Brings {} {} movedView [movedWish] ∧
    ¬Converged key [movedWish] t.site.rules := by
  obtain ⟨summary, t, hweave, hrules, -⟩ := exists_overlap
  refine ⟨summary, t, hweave, interleaved_weave may_attend may_attend hweave, rfl,
    moved_brings, ?_⟩
  intro hconverged
  have howned : (⟨"i", (wish "http" 80 80).spec⟩ :
      RouterRule) ∈ ownedRules key t.site.rules := by
    rw [hrules]
    exact List.mem_filter.mpr ⟨List.mem_singleton.mpr rfl, by decide⟩
  obtain ⟨d, hd, hmeets⟩ := hconverged.meets _ howned
  obtain rfl := List.mem_singleton.mp hd
  have hsame : Address.v4 10 0 0 5 = .v4 10 0 0 6 := hmeets.destination
  exact absurd hsame (by decide)

end PortForwarding
