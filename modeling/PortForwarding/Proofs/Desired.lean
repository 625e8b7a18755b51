import PortForwarding.Desired
import PortForwarding.Proofs.Rule.Wanted

/-!
# What is worked out for a Service is what it may want

Whatever a Service's annotations say: if `Desired.rulesFor` works out rules at
all, they are named for ports of that Service, and no two of them have the same
external port, let alone the same slot (`rulesFor_wanted`,
`rulesFor_ports_nodup`).
-/

namespace PortForwarding

theorem ok_of_bind {ε α β : Type} {x : Except ε α} {f : α → Except ε β} {b : β}
    (h : (x >>= f) = .ok b) : ∃ a, x = .ok a ∧ f a = .ok b := by
  cases x with
  | ok a => exact ⟨a, rfl, h⟩
  | error e => exact absurd h (by simp [bind, Except.bind])

/-! ## Tokens -/

namespace Mapping

variable {text : String} {token : List Char} {m : PortMapping} {ms : List PortMapping}

theorem isName_of_isPortName {cs : List Char} (h : isPortName cs = true) :
    Owner.isName cs = true := by
  unfold isPortName at h
  rw [Bool.and_eq_true, Bool.and_eq_true, List.all_eq_true] at h
  obtain ⟨⟨hall, hhead⟩, -⟩ := h
  unfold Owner.isName
  rw [Bool.and_eq_true, List.all_eq_true]
  constructor
  · cases cs with
    | nil => exact absurd hhead (by simp)
    | cons c cs => rfl
  · intro c hc
    have hchar := hall c hc
    unfold isAlnum at hchar
    unfold Owner.isNameChar
    rw [hchar, Bool.true_or]

theorem isName_of_parseToken (h : parseToken token = .ok m) :
    Owner.isName m.port.toList = true := by
  unfold parseToken at h
  cases hsplit : splitAtColon token with
  | mk name rest =>
      rw [hsplit] at h
      by_cases hname : isPortName name = true
      · have hport : m.port = String.ofList name := by
          simp only [hname, Bool.not_true, Bool.false_eq_true, if_false] at h
          split at h
          · obtain rfl := Except.ok.inj h
            rfl
          · split at h
            · exact absurd h (by simp)
            · split at h
              · obtain rfl := Except.ok.inj h
                rfl
              · exact absurd h (by simp)
        rw [hport, String.toList_ofList]
        exact isName_of_isPortName hname
      · simp only [hname, Bool.not_false, if_true] at h
        exact absurd h (by simp)

theorem isName_of_parse (h : parse text = .ok ms) :
    ∀ m ∈ ms, Owner.isName m.port.toList = true := by
  unfold parse at h
  split at h
  · exact absurd h (by simp)
  · generalize splitAtCommas text.toList = pieces at h
    induction pieces generalizing ms with
    | nil =>
        obtain rfl := Except.ok.inj h
        simp
    | cons piece pieces ih =>
        rw [List.mapM_cons] at h
        obtain ⟨m, hpiece, h⟩ := ok_of_bind h
        obtain ⟨rest, hrest, h⟩ := ok_of_bind h
        obtain rfl := Except.ok.inj h
        intro m' hm'
        rcases List.mem_cons.mp hm' with rfl | hm'
        · exact isName_of_parseToken hpiece
        · exact ih hrest m' hm'

end Mapping

/-! ## Rules -/

namespace Desired

variable {view : ServiceView} {defaults : RuleDefaults} {destination : Address}
  {names : List String} {ports : List UInt16} {m : PortMapping}
  {ms : List PortMapping} {r : DesiredRule} {rules : List DesiredRule}

/-- A rule for a token is named for the token's port, takes no port that is taken
and lets through the source that the Service asks for. -/
theorem ruleFor_ok (h : ruleFor view defaults destination names ports m = .ok r) :
    r.owner = .of view.key m.port ∧ r.spec.name = r.owner.text ∧
      r.slot.external ∉ ports ∧
      r.spec.source = view.source? := by
  unfold ruleFor at h
  split at h
  · exact absurd h (by simp)
  · next declared hfind =>
      have hname : declared.name = m.port := by simpa using List.find?_some hfind
      simp only at h
      split at h
      · exact absurd h (by simp)
      · split at h
        · exact absurd h (by simp)
        · next hport =>
            split at h
            · exact absurd h (by simp)
            · obtain rfl := Except.ok.inj h
              refine ⟨congrArg (Owner.of view.key) hname, rfl, ?_, rfl⟩
              exact fun hmem => hport (List.contains_iff_mem.mpr hmem)

/-- The rules for tokens, one after another, each with the ports before it taken. -/
theorem rulesForAll_ok (hms : ∀ m ∈ ms, Owner.isName m.port.toList = true)
    (h : rulesForAll view defaults destination names ports ms = .ok rules) :
    (∀ r ∈ rules, r.owner.key = view.key ∧ Owner.isName r.owner.port.toList = true ∧
      r.spec.name = r.owner.text ∧ r.slot.external ∉ ports) ∧
    (externalPorts rules).Nodup := by
  induction ms generalizing names ports rules with
  | nil =>
      obtain rfl := Except.ok.inj h
      exact ⟨by simp, List.nodup_nil⟩
  | cons m ms ih =>
      unfold rulesForAll at h
      obtain ⟨r, hrule, h⟩ := ok_of_bind h
      obtain ⟨rest, hrest, h⟩ := ok_of_bind h
      obtain rfl := Except.ok.inj h
      obtain ⟨howner, hname, hport, -⟩ := ruleFor_ok hrule
      obtain ⟨hrules, hnodup⟩ := ih (fun m hm => hms m (List.mem_cons_of_mem _ hm)) hrest
      constructor
      · intro r' hr'
        rcases List.mem_cons.mp hr' with rfl | hr'
        · rw [howner]
          exact ⟨rfl, hms m List.mem_cons_self, howner ▸ hname, hport⟩
        · obtain ⟨hkey, hvalid, htext, hnot⟩ := hrules r' hr'
          exact ⟨hkey, hvalid, htext, fun hmem => hnot (List.mem_cons_of_mem _ hmem)⟩
      · refine List.nodup_cons.mpr ⟨fun hmem => ?_, hnodup⟩
        obtain ⟨r', hr', hsame⟩ := List.mem_map.mp hmem
        exact (hrules r' hr').2.2.2 (hsame ▸ List.mem_cons_self)

theorem rulesFor_ok (h : rulesFor view defaults = .ok rules) :
    (∀ r ∈ rules, r.owner.key = view.key ∧ Owner.isName r.owner.port.toList = true ∧
      r.spec.name = r.owner.text) ∧
    (externalPorts rules).Nodup := by
  unfold rulesFor at h
  split at h
  · obtain rfl := Except.ok.inj h
    exact ⟨by simp, List.nodup_nil⟩
  · split at h
    · exact absurd h (by simp)
    · split at h
      · exact absurd h (by simp)
      · next hparse =>
          obtain ⟨hrules, hnodup⟩ := rulesForAll_ok (Mapping.isName_of_parse hparse) h
          exact ⟨fun r hr =>
            ⟨(hrules r hr).1, (hrules r hr).2.1, (hrules r hr).2.2.1⟩, hnodup⟩

theorem rulesForAll_source
    (h : rulesForAll view defaults destination names ports ms = .ok rules) :
    ∀ r ∈ rules, r.spec.source = view.source? := by
  induction ms generalizing names ports rules with
  | nil =>
      obtain rfl := Except.ok.inj h
      simp
  | cons m ms ih =>
      unfold rulesForAll at h
      obtain ⟨r, hrule, h⟩ := ok_of_bind h
      obtain ⟨rest, hrest, h⟩ := ok_of_bind h
      obtain rfl := Except.ok.inj h
      intro r' hr'
      rcases List.mem_cons.mp hr' with rfl | hr'
      · exact (ruleFor_ok hrule).2.2.2
      · exact ih hrest r' hr'

theorem rulesFor_source (h : rulesFor view defaults = .ok rules) :
    ∀ r ∈ rules, r.spec.source = view.source? := by
  unfold rulesFor at h
  split at h
  · obtain rfl := Except.ok.inj h
    simp
  · split at h
    · exact absurd h (by simp)
    · split at h
      · exact absurd h (by simp)
      · exact rulesForAll_source h

/-- **No external port is wanted twice.** -/
theorem rulesFor_ports_nodup (h : rulesFor view defaults = .ok rules) :
    (externalPorts rules).Nodup :=
  (rulesFor_ok h).2

/-- **The rules that are worked out for a Service are rules that it may want.** -/
theorem rulesFor_wanted (h : rulesFor view defaults = .ok rules) :
    Wanted view.key rules := by
  obtain ⟨hrules, hnodup⟩ := rulesFor_ok h
  refine ⟨?_, fun r hr => (hrules r hr).1, fun r hr => (hrules r hr).2.1,
    fun r hr => (hrules r hr).2.2⟩
  have hports : externalPorts rules = (rules.map DesiredRule.slot).map Slot.external := by
    rw [List.map_map]
    rfl
  rw [hports] at hnodup
  exact hnodup.of_map _

end Desired

end PortForwarding
