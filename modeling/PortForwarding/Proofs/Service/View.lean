import PortForwarding.Desired
import PortForwarding.Proofs.Service.Stored
import PortForwarding.Proofs.Text.Blank
import PortForwarding.Record.Change

/-!
# What the operator sees of a Service that it has marked

Finalizers and the annotations of its own state are all that the operator writes
on a Service. It sees the same Service afterwards (`of?_of_marked`): the same
rules are wanted for it (`Alike.rulesFor`), and the same is noted of it
(`Alike.compute`).
-/

namespace PortForwarding.ServiceView

variable {o o' : ServiceObject} {view view' : ServiceView} {defaults : RuleDefaults}

/-- The views differ in nothing but what the operator writes itself. -/
structure Alike (view view' : ServiceView) : Prop where
  key : view'.key = view.key
  ports : view'.ports = view.ports
  destination : view'.destination = view.destination
  deleting : view'.deleting = view.deleting
  mapping : view'.mapping? = view.mapping?
  source : view'.source? = view.source?

/-! ## The view -/

/-- Where the traffic of a Service goes does not depend on what the
operator writes. -/
theorem destinationOf_of_marked (h : Marked o o') :
    destinationOf o' = destinationOf o := by
  have hingress : o'.ingress = o.ingress := by rw [h.rest]
  have haddress : o'.annotation? Mark.ipAddress = o.annotation? Mark.ipAddress :=
    h.annotation _ (by decide)
  unfold destinationOf
  rw [hingress, haddress]

/-- The view of a Service with this key, whose traffic goes there. -/
def seen (o : ServiceObject) (key : ServiceKey) (destination : Option Address) :
    ServiceView :=
  { key := key
    annotations := o.annotations
    ports := o.ports.filterMap declared?
    destination := destination
    deleting := o.deleting
    hasFinalizer := o.finalizers.contains Mark.finalizer
    reference := o.reference }

/-- A Service has a view exactly where its key and its destination can be
made out. -/
theorem of?_eq_ok_iff : of? o = .ok view ↔
    ∃ ns name destination, o.namespace = some ns ∧ o.name = some name ∧
      destinationOf o = .ok destination ∧ view = seen o ⟨ns, name⟩ destination := by
  unfold of?
  cases hns : o.namespace with
  | none => simp
  | some ns =>
      cases hname : o.name with
      | none => simp
      | some name =>
          cases hdestination : destinationOf o with
          | error e => simp [bind, Except.bind]
          | ok destination =>
              constructor
              · intro h
                exact ⟨ns, name, destination, rfl, rfl, rfl, (Except.ok.inj h).symm⟩
              · rintro ⟨_, _, _, hns', hname', hdestination', rfl⟩
                obtain rfl := Option.some.inj hns'
                obtain rfl := Option.some.inj hname'
                obtain rfl := Except.ok.inj hdestination'
                rfl

/-- A Service is managed exactly where it asks for ports and has a destination. -/
theorem qualifies_seen (key : ServiceKey) (destination : Option Address) :
    (seen o key destination).qualifies =
      ((o.annotation? Mark.ports).isSome && destination.isSome) :=
  rfl

theorem of?_ok (h : of? o = .ok view) :
    view.key = o.key ∧ view.annotations = o.annotations ∧
      view.hasFinalizer = o.finalizers.contains Mark.finalizer := by
  obtain ⟨ns, name, destination, hns, hname, -, rfl⟩ := of?_eq_ok_iff.mp h
  refine ⟨?_, rfl, rfl⟩
  unfold ServiceObject.key
  rw [hns, hname]
  rfl

theorem deleting_of_seen (h : of? o = .ok view) : view.deleting = o.deleting := by
  obtain ⟨_, _, _, -, -, -, rfl⟩ := of?_eq_ok_iff.mp h
  rfl

theorem annotation?_of_seen (h : of? o = .ok view) (name : String) :
    view.annotation? name = o.annotation? name := by
  unfold annotation? ServiceObject.annotation?
  rw [(of?_ok h).2.1]

/-- **A marked Service is seen as before**, with the marks. -/
theorem of?_of_marked (h : of? o = .ok view) (hmarked : Marked o o') :
    ∃ view', of? o' = .ok view' ∧ Alike view view' := by
  obtain ⟨ns, name, destination, hns, hname, hdestination, rfl⟩ := of?_eq_ok_iff.mp h
  have hns' : o'.namespace = some ns := by rw [hmarked.rest, hns]
  have hname' : o'.name = some name := by rw [hmarked.rest, hname]
  have hports : o'.ports = o.ports := by rw [hmarked.rest]
  have hdeleting : o'.deleting = o.deleting := by rw [hmarked.rest]
  refine ⟨seen o' ⟨ns, name⟩ destination,
    of?_eq_ok_iff.mpr ⟨ns, name, destination, hns', hname', ?_, rfl⟩, rfl,
    congrArg (List.filterMap declared?) hports, rfl, hdeleting, ?_, ?_⟩
  · rw [destinationOf_of_marked hmarked, hdestination]
  · exact hmarked.annotation Mark.ports (by decide)
  · exact congrArg (Option.bind · restriction?)
      (hmarked.annotation Mark.source (by decide))

/-! ## What is made of it -/

theorem Alike.qualifies (h : Alike view view') :
    view'.qualifies = view.qualifies := by
  unfold ServiceView.qualifies
  rw [h.mapping, h.destination]

theorem Alike.ruleFor (h : Alike view view') (destination : Address)
    (names : List String) (ports : List UInt16) (m : PortMapping) :
    Desired.ruleFor view' defaults destination names ports m =
      Desired.ruleFor view defaults destination names ports m := by
  unfold Desired.ruleFor Desired.rule
  rw [h.ports, h.key, h.source]

theorem Alike.rulesForAll (h : Alike view view') (destination : Address)
    (names : List String) (ports : List UInt16) (ms : List PortMapping) :
    Desired.rulesForAll view' defaults destination names ports ms =
      Desired.rulesForAll view defaults destination names ports ms := by
  induction ms generalizing names ports with
  | nil => rfl
  | cons m ms ih => simp only [Desired.rulesForAll, h.ruleFor, ih]

/-- **The same rules are wanted.** -/
theorem Alike.rulesFor (h : Alike view view') :
    Desired.rulesFor view' defaults = Desired.rulesFor view defaults := by
  unfold Desired.rulesFor
  simp only [h.mapping, h.destination, h.rulesForAll]

/-- **The same is noted.** -/
theorem Alike.compute (h : Alike view view') (previous : Option ChangeRecord) :
    ChangeRecord.compute previous view' = ChangeRecord.compute previous view := by
  unfold ChangeRecord.compute
  rw [h.mapping, h.destination, h.ports, h.key]

/-! ## The source that is let through -/

/-- **A restriction is one again**, with nothing left to trim. -/
theorem restriction?_of_restriction? {text source : String}
    (h : restriction? text = some source) :
    restriction? source = some source := by
  unfold restriction? at h
  simp only at h
  split at h
  · exact absurd h (by simp)
  · next hnot =>
      obtain rfl := Option.some.inj h
      unfold restriction?
      rw [Text.trimmed_trimmed]
      exact if_neg hnot

theorem restriction?_of_source? {source : String} (h : view.source? = some source) :
    restriction? source = some source := by
  obtain ⟨text, -, hrestriction⟩ := Option.bind_eq_some_iff.mp h
  exact restriction?_of_restriction? hrestriction

end PortForwarding.ServiceView
