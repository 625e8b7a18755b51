import Mathlib.Data.List.Nodup
import PortForwarding.Proofs.Record.Cleanup
import PortForwarding.Record.Change

/-!
# The record of changes reads back

What a successful pass has noted on a Service the next pass reads, every field as
it was written (`decode_encode`). So a pass that finds the Service as the pass
before it did sees no change (`hasChanges_compute_again`), and has nothing to
write.
-/

namespace PortForwarding

open Json

/-! ## Ports -/

theorem DeclaredPort.ofJson_toJson (p : DeclaredPort) : ofJson p.toJson = some p := by
  have hrow : p.toJson.row ["name", "port", "protocol"] =
      some [some (.str p.name), some (.nat p.port.toNat), some (.str p.protocol)] := by
    simp [toJson, row, rowOfMembers, valuesOf]
  unfold ofJson
  rw [hrow]
  simp only [required, word16?_nat, text?, Option.bind_eq_bind, Option.bind_some]
  rfl

namespace PortChange

theorem caseOf?_type (t : PortChangeType) :
    caseOf? PortChangeType.text PortChangeType.all (.str t.text) = some t := by
  cases t <;> decide

/-- The fields of a written change, in order; what is absent was left out. -/
theorem row_toJson (c : PortChange) :
    c.toJson.row ["change_type", "port_name", "old_port", "new_port", "old_protocol",
        "new_protocol"] =
      some [some (.str c.changeType.text), some (.str c.portName),
        c.oldPort.map fun p => .nat p.toNat, c.newPort.map fun p => .nat p.toNat,
        c.oldProtocol.map .str, c.newProtocol.map .str] := by
  unfold toJson
  show rowOfMembers _ _ = _
  -- each field is said once or left out, whatever becomes of the others
  rw [rowOfMembers_cons (some (.str c.changeType.text)),
    rowOfMembers_cons (some (.str c.portName)),
    rowOfMembers_cons (c.oldPort.map fun p => .nat p.toNat),
    rowOfMembers_cons (c.newPort.map fun p => .nat p.toNat),
    rowOfMembers_cons (c.oldProtocol.map .str),
    rowOfMembers_cons (c.newProtocol.map .str)]
  · rfl
  all_goals
    simp only [valuesOf_append, valuesOf_optional]
    simp [valuesOf]

theorem ofJson_toJson (c : PortChange) : ofJson c.toJson = some c := by
  unfold ofJson
  rw [row_toJson]
  simp only [required, caseOf?_type, text?, optional_word16, optional_text,
    Option.bind_eq_bind, Option.bind_some]
  rfl

theorem mem_of_lastOfEach {p : DeclaredPort} {ports : List DeclaredPort}
    (h : p ∈ byName.lastOfEach ports) : p ∈ ports := by
  induction ports with
  | nil => exact h
  | cons q ports ih =>
      unfold byName.lastOfEach at h
      split at h
      · exact List.mem_cons_of_mem q (ih h)
      · rcases List.mem_cons.mp h with rfl | h
        · exact List.mem_cons_self
        · exact List.mem_cons_of_mem q (ih h)

theorem lastOfEach_names_nodup (ports : List DeclaredPort) :
    ((byName.lastOfEach ports).map DeclaredPort.name).Nodup := by
  induction ports with
  | nil => exact List.nodup_nil
  | cons p ports ih =>
      unfold byName.lastOfEach
      split
      · exact ih
      · next hlast =>
          refine List.nodup_cons.mpr ⟨fun hmem => ?_, ih⟩
          obtain ⟨q, hq, hname⟩ := List.mem_map.mp hmem
          exact hlast (List.any_eq_true.mpr
            ⟨q, mem_of_lastOfEach hq, by simpa using hname⟩)

theorem names_nodup (ports : List DeclaredPort) :
    ((byName ports).map DeclaredPort.name).Nodup :=
  ((List.mergeSort_perm _ _).map _).nodup_iff.mpr (lastOfEach_names_nodup ports)

theorem named?_of_mem {p : DeclaredPort} {ports : List DeclaredPort}
    (hnd : (ports.map DeclaredPort.name).Nodup) (hp : p ∈ ports) :
    named? ports p.name = some p := by
  unfold named?
  cases hfind : ports.find? fun q => q.name == p.name with
  | none => exact absurd (List.find?_eq_none.mp hfind p hp) (by simp)
  | some q =>
      have hname : q.name = p.name := by simpa using List.find?_some hfind
      rw [List.inj_on_of_nodup_map hnd (List.mem_of_find?_eq_some hfind) hp hname]

theorem mem_of_named? {p : DeclaredPort} {ports : List DeclaredPort} {name : String}
    (h : named? ports name = some p) : p ∈ ports ∧ p.name = name :=
  ⟨List.mem_of_find?_eq_some h, by simpa using List.find?_some h⟩

/-- A port that was there before is unchanged if its name stands for the same. -/
theorem ofOld?_eq_none_iff {now : List DeclaredPort} {before : DeclaredPort} :
    ofOld? now before = none ↔
      (named? now before.name).map (fun p => (p.port, p.protocol)) =
        some (before.port, before.protocol) := by
  unfold ofOld?
  cases hnow : named? now before.name with
  | none => simp
  | some after => simp [Prod.ext_iff]

theorem ofNew?_eq_none_iff {old : List DeclaredPort} {after : DeclaredPort} :
    ofNew? old after = none ↔ named? old after.name ≠ none := by
  unfold ofNew?
  cases named? old after.name <;> simp

/-- **Nothing has changed exactly between what is the same**, name by name. -/
theorem between_eq_nil_iff {old new : List DeclaredPort} :
    between old new = [] ↔ portMap old = portMap new := by
  unfold between portMap
  rw [List.append_eq_nil_iff, List.filterMap_eq_nil_iff, List.filterMap_eq_nil_iff]
  constructor
  · rintro ⟨hold, hnew⟩
    funext name
    cases hbefore : named? (byName old) name with
    | some p =>
        obtain ⟨hp, rfl⟩ := mem_of_named? hbefore
        exact (ofOld?_eq_none_iff.mp (hold p hp)).symm
    | none =>
        cases hafter : named? (byName new) name with
        | none => rfl
        | some q =>
            obtain ⟨hq, rfl⟩ := mem_of_named? hafter
            exact absurd hbefore (ofNew?_eq_none_iff.mp (hnew q hq))
  · intro hsame
    have hname := congrFun hsame
    refine ⟨fun p hp => ofOld?_eq_none_iff.mpr ?_, fun q hq => ofNew?_eq_none_iff.mpr ?_⟩
    · rw [← hname p.name, named?_of_mem (names_nodup old) hp]
      rfl
    · intro hnone
      have hgone := hname q.name
      rw [hnone, named?_of_mem (names_nodup new) hq] at hgone
      exact absurd hgone (by simp)

theorem between_self (ports : List DeclaredPort) : between ports ports = [] :=
  between_eq_nil_iff.mpr rfl

end PortChange

/-! ## The record -/

namespace ChangeRecord

theorem ofJson_toJson (r : ChangeRecord) : ofJson r.toJson = some r := by
  have hrow : r.toJson.row ["ip_changed", "old_ip", "new_ip", "annotation_changed",
      "old_annotation", "new_annotation", "spec_changed", "port_changes", "service_key",
      "observed_ports"] =
      some [some (.bool r.ipChanged), some (orNull (r.oldIp.map .str)),
        some (orNull (r.newIp.map .str)), some (.bool r.mappingChanged),
        some (orNull (r.oldMapping.map .str)),
        some (orNull (r.newMapping.map .str)), some (.bool r.specChanged),
        some (.arr (r.portChanges.map PortChange.toJson)),
        some (.str r.serviceKey),
        some (.arr (r.observedPorts.map DeclaredPort.toJson))] := by
    simp [toJson, row, rowOfMembers, valuesOf]
  unfold ofJson
  rw [hrow]
  simp only [defaulted, optional_orNull, bool?, text?,
    listOf?_arr PortChange.ofJson_toJson,
    listOf?_arr DeclaredPort.ofJson_toJson, Option.bind_eq_bind, Option.bind_some]
  rfl

/-- **A record is read back as it was written.** -/
theorem decode_encode (r : ChangeRecord) : decode r.encode = some r := by
  unfold decode encode
  rw [parse_text, Option.bind_some, ofJson_toJson]

/-- **A Service that is as it was noted shows no change.** -/
theorem hasChanges_compute_again (previous : Option ChangeRecord)
    (view : ServiceView) :
    (compute (some (compute previous view)) view).hasChanges = false := by
  have hports : PortChange.between view.ports view.ports = [] := PortChange.between_self _
  unfold hasChanges
  simp [compute, hports]

end ChangeRecord

end PortForwarding
