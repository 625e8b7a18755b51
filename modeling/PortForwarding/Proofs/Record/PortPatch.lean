import Mathlib.Data.List.Permutation
import Mathlib.Logic.Function.Basic
import PortForwarding.Proofs.Record.Change

/-!
# Changes of ports are a patch

Declared ports are a map from names to ports and protocols, in which a name that
is declared again stands for the last declaration (`declareAll`). The changes that
are told between two lists of ports are what turns the one map into the other:
each of them tells what its name stood for and what it stands for now (`Tells`),
names that stand for the same are not in them, and no name comes twice.
-/

namespace PortForwarding.PortChange

/-! ## Declared ports as a map -/

/-- One more declaration, which overrides an earlier one of its name. -/
def declare (m : PortMap) (p : DeclaredPort) : PortMap :=
  Function.update m p.name (some (p.port, p.protocol))

/-- **What the names stand for** once the ports have been declared, one
after another. -/
def declareAll (ports : List DeclaredPort) : PortMap :=
  ports.foldl declare fun _ => none

variable {m : PortMap} {p : DeclaredPort} {ports old new : List DeclaredPort}
  {name : String} {c : PortChange} {cs : List PortChange}

theorem named?_eq_none_iff :
    named? ports name = none ↔ ∀ p ∈ ports, p.name ≠ name := by
  unfold named?
  simp

theorem named?_lastOfEach_ne_none (h : ports.any (fun q => q.name == name) = true) :
    named? (byName.lastOfEach ports) name ≠ none := by
  induction ports with
  | nil => exact absurd h (by simp)
  | cons p ports ih =>
      unfold byName.lastOfEach
      by_cases hlater : ports.any (fun q => q.name == p.name) = true
      · rw [if_pos hlater]
        rw [List.any_cons, Bool.or_eq_true, beq_iff_eq] at h
        rcases h with rfl | h
        · exact ih hlater
        · exact ih h
      · rw [if_neg hlater]
        unfold named?
        by_cases hname : p.name = name
        · simp [hname]
        · rw [List.find?_cons_of_neg (by simpa using hname)]
          refine ih ?_
          simpa [hname] using h

/-- The last declaration of a name counts, and otherwise what was there before. -/
theorem foldl_declare (m : PortMap) (ports : List DeclaredPort) (name : String) :
    ports.foldl declare m name =
      ((named? (byName.lastOfEach ports) name).map fun p =>
        (p.port, p.protocol)).or (m name) := by
  induction ports generalizing m with
  | nil => rfl
  | cons p ports ih =>
      rw [List.foldl_cons, ih, byName.lastOfEach]
      by_cases hlater : ports.any (fun q => q.name == p.name) = true
      · rw [if_pos hlater]
        by_cases hname : name = p.name
        · subst hname
          obtain ⟨q, hq⟩ :=
            Option.ne_none_iff_exists'.mp (named?_lastOfEach_ne_none hlater)
          rw [hq]
          rfl
        · rw [declare, Function.update_of_ne hname]
      · rw [if_neg hlater]
        by_cases hname : name = p.name
        · subst hname
          have hnone : named? (byName.lastOfEach ports) p.name = none := by
            refine named?_eq_none_iff.mpr fun q hq hsame => hlater ?_
            exact List.any_eq_true.mpr ⟨q, mem_of_lastOfEach hq, by simpa using hsame⟩
          rw [hnone, declare, Function.update_self]
          simp [named?]
        · rw [declare, Function.update_of_ne hname]
          unfold named?
          rw [List.find?_cons_of_neg (by simpa using Ne.symm hname)]

theorem named?_perm {ports' : List DeclaredPort}
    (hnd : (ports.map DeclaredPort.name).Nodup) (h : ports'.Perm ports) :
    named? ports' name = named? ports name := by
  have hnd' : (ports'.map DeclaredPort.name).Nodup := (h.map _).nodup_iff.mpr hnd
  cases hnamed : named? ports name with
  | some p =>
      obtain ⟨hp, rfl⟩ := mem_of_named? hnamed
      exact named?_of_mem hnd' (h.mem_iff.mpr hp)
  | none =>
      exact named?_eq_none_iff.mpr fun p hp =>
        named?_eq_none_iff.mp hnamed p (h.mem_iff.mp hp)

theorem portMap_eq_declareAll (ports : List DeclaredPort) :
    portMap ports = declareAll ports := by
  funext name
  unfold portMap declareAll
  rw [foldl_declare, Option.or_none]
  exact congrArg _ (named?_perm (lastOfEach_names_nodup ports) (List.mergeSort_perm _ _))

theorem portMap_of_mem (h : p ∈ byName ports) :
    portMap ports p.name = some (p.port, p.protocol) := by
  unfold portMap
  rw [named?_of_mem (names_nodup ports) h]
  rfl

theorem portMap_eq_none_iff :
    portMap ports name = none ↔ named? (byName ports) name = none :=
  Option.map_eq_none_iff

/-! ## What a change tells -/

/-- **The change tells what its name stood for and what it stands for now**, and
these differ. -/
structure Tells (old new : PortMap) (c : PortChange) : Prop where
  oldPort : c.oldPort = (old c.portName).map Prod.fst
  oldProtocol : c.oldProtocol = (old c.portName).map Prod.snd
  newPort : c.newPort = (new c.portName).map Prod.fst
  newProtocol : c.newProtocol = (new c.portName).map Prod.snd
  added : c.changeType = .added ↔ old c.portName = none
  removed : c.changeType = .removed ↔ new c.portName = none
  differs : old c.portName ≠ new c.portName

theorem tells_of_old (hp : p ∈ byName old) (h : ofOld? (byName new) p = some c) :
    c.portName = p.name ∧ Tells (portMap old) (portMap new) c := by
  have hbefore := portMap_of_mem hp
  unfold ofOld? at h
  cases hafter : named? (byName new) p.name with
  | none =>
      have hnone : portMap new p.name = none := portMap_eq_none_iff.mpr hafter
      simp only [hafter] at h
      obtain rfl := Option.some.inj h
      refine ⟨rfl, ?_⟩
      constructor <;> simp [hbefore, hnone]
  | some q =>
      obtain ⟨hq, hname⟩ := mem_of_named? hafter
      have hnow : portMap new p.name = some (q.port, q.protocol) :=
        hname ▸ portMap_of_mem hq
      simp only [hafter] at h
      split at h
      · next hdiffers =>
          obtain rfl := Option.some.inj h
          refine ⟨rfl, ?_⟩
          constructor <;> simp [hbefore, hnow]
          grind
      · exact absurd h (by simp)

theorem tells_of_new (hp : p ∈ byName new) (h : ofNew? (byName old) p = some c) :
    c.portName = p.name ∧ portMap old p.name = none ∧
    Tells (portMap old) (portMap new) c := by
  have hnow := portMap_of_mem hp
  unfold ofNew? at h
  cases hbefore : named? (byName old) p.name with
  | none =>
      have hnone : portMap old p.name = none := portMap_eq_none_iff.mpr hbefore
      simp only [hbefore] at h
      obtain rfl := Option.some.inj h
      refine ⟨rfl, hnone, ?_⟩
      constructor <;> simp [hnow, hnone]
  | some q =>
      simp only [hbefore] at h
      exact absurd h (by simp)

theorem tells_of_mem (h : c ∈ between old new) :
    Tells (portMap old) (portMap new) c := by
  rcases List.mem_append.mp h with h | h
  · obtain ⟨p, hp, hchange⟩ := List.mem_filterMap.mp h
    exact (tells_of_old hp hchange).2
  · obtain ⟨p, hp, hchange⟩ := List.mem_filterMap.mp h
    exact (tells_of_new hp hchange).2.2

/-! ## Which names change -/

/-- Changes of ports, none of which has the name of another, have names that
come once. -/
theorem filterMap_names_nodup {f : DeclaredPort → Option PortChange}
    (hname : ∀ p ∈ ports, ∀ c, f p = some c → c.portName = p.name)
    (hnd : (ports.map DeclaredPort.name).Nodup) :
    ((ports.filterMap f).map PortChange.portName).Nodup := by
  induction ports with
  | nil => exact List.nodup_nil
  | cons p ports ih =>
      rw [List.map_cons, List.nodup_cons] at hnd
      have hlater := ih (fun q hq => hname q (List.mem_cons_of_mem _ hq)) hnd.2
      cases hp : f p with
      | none =>
          rw [List.filterMap_cons_none hp]
          exact hlater
      | some c =>
          rw [List.filterMap_cons_some hp, List.map_cons]
          refine List.nodup_cons.mpr ⟨fun hmem => hnd.1 ?_, hlater⟩
          obtain ⟨d, hd, hsame⟩ := List.mem_map.mp hmem
          obtain ⟨q, hq, hchange⟩ := List.mem_filterMap.mp hd
          rw [← hname p List.mem_cons_self c hp, ← hsame,
            hname q (List.mem_cons_of_mem _ hq) d hchange]
          exact List.mem_map_of_mem hq

/-- **No name changes twice.** -/
theorem between_names_nodup (old new : List DeclaredPort) :
    ((between old new).map PortChange.portName).Nodup := by
  unfold between
  rw [List.map_append]
  refine List.nodup_append.mpr ⟨?_, ?_, ?_⟩
  · exact filterMap_names_nodup (fun p hp c h => (tells_of_old hp h).1) (names_nodup old)
  · exact filterMap_names_nodup (fun p hp c h => (tells_of_new hp h).1) (names_nodup new)
  · rintro _ hbefore _ hnow rfl
    -- a port that was there before does not come new
    obtain ⟨c, hc, rfl⟩ := List.mem_map.mp hbefore
    obtain ⟨d, hd, hsame⟩ := List.mem_map.mp hnow
    obtain ⟨p, hp, hc⟩ := List.mem_filterMap.mp hc
    obtain ⟨q, hq, hd⟩ := List.mem_filterMap.mp hd
    obtain ⟨hqname, hnone, -⟩ := tells_of_new hq hd
    rw [← hqname, hsame, (tells_of_old hp hc).1, portMap_of_mem hp] at hnone
    exact absurd hnone (by simp)

theorem portMap_eq_of_unchanged
    (h : name ∉ (between old new).map PortChange.portName) :
    portMap old name = portMap new name := by
  have hunchanged : ∀ c ∈ between old new, c.portName ≠ name :=
    fun c hc hname => h (List.mem_map.mpr ⟨c, hc, hname⟩)
  cases hbefore : named? (byName old) name with
  | some p =>
      obtain ⟨hp, rfl⟩ := mem_of_named? hbefore
      have hnone : ofOld? (byName new) p = none := by
        by_contra hsome
        obtain ⟨c, hc⟩ := Option.ne_none_iff_exists'.mp hsome
        exact hunchanged c (List.mem_append_left _ (List.mem_filterMap.mpr ⟨p, hp, hc⟩))
          (tells_of_old hp hc).1
      rw [portMap_of_mem hp]
      exact (ofOld?_eq_none_iff.mp hnone).symm
  | none =>
      rw [portMap_eq_none_iff.mpr hbefore]
      refine (portMap_eq_none_iff.mpr (named?_eq_none_iff.mpr fun q hq hname => ?_)).symm
      have hnew : ofNew? (byName old) q ≠ none :=
        fun hnone => ofNew?_eq_none_iff.mp hnone (by rw [hname, hbefore])
      obtain ⟨c, hc⟩ := Option.ne_none_iff_exists'.mp hnew
      exact hunchanged c (List.mem_append_right _ (List.mem_filterMap.mpr ⟨q, hq, hc⟩))
        ((tells_of_new hq hc).1.trans hname)

/-! ## Carrying changes out -/

/-- A change that tells what its name stands for now brings that about. -/
theorem Tells.patch {before after : PortMap} (h : Tells before after c)
    (m : PortMap) : patch m c c.portName = after c.portName := by
  unfold PortChange.patch
  rw [if_pos rfl, h.newPort, h.newProtocol]
  cases hafter : after c.portName with
  | none => rw [h.removed.mpr hafter]
  | some value =>
      have hkept : c.changeType ≠ .removed := fun hgone =>
        absurd (hafter.symm.trans (h.removed.mp hgone)) (by simp)
      cases htype : c.changeType with
      | removed => exact absurd htype hkept
      | added | modified => rfl

theorem patch_of_ne (h : name ≠ c.portName) : patch m c name = m name :=
  if_neg h

theorem foldl_patch_of_notMem (h : name ∉ cs.map PortChange.portName) :
    cs.foldl patch m name = m name := by
  induction cs generalizing m with
  | nil => rfl
  | cons c cs ih =>
      rw [List.map_cons, List.mem_cons, not_or] at h
      rw [List.foldl_cons, ih h.2, patch_of_ne h.1]

/-- Of changes that tell what their names stand for now, each brings that about
for its own. -/
theorem foldl_patch_of_mem {before after : PortMap}
    (htells : ∀ c ∈ cs, Tells before after c)
    (hnd : (cs.map PortChange.portName).Nodup) (hc : c ∈ cs) :
    cs.foldl patch m c.portName = after c.portName := by
  induction cs generalizing m with
  | nil => exact absurd hc List.not_mem_nil
  | cons d cs ih =>
      rw [List.map_cons, List.nodup_cons] at hnd
      rw [List.foldl_cons]
      rcases List.mem_cons.mp hc with rfl | hc
      · rw [foldl_patch_of_notMem hnd.1, (htells _ List.mem_cons_self).patch]
      · exact ih (fun c hc => htells c (List.mem_cons_of_mem _ hc)) hnd.2 hc

/-- **The changes turn the old map into the new one.** -/
theorem foldl_patch_between (old new : List DeclaredPort) :
    (between old new).foldl patch (portMap old) = portMap new := by
  funext name
  by_cases h : name ∈ (between old new).map PortChange.portName
  · obtain ⟨c, hc, rfl⟩ := List.mem_map.mp h
    exact foldl_patch_of_mem (fun c hc => tells_of_mem hc)
      (between_names_nodup old new) hc
  · rw [foldl_patch_of_notMem h, portMap_eq_of_unchanged h]

/-- **Changes of ports are an exact patch**: carried out on the old map they give
the new one, each tells what it changes, no name changes twice, there are none
exactly between equal maps, and so a Service that is compared with what was noted
of it shows no change. -/
theorem between_exact (old new : List DeclaredPort) :
    (between old new).foldl patch (declareAll old) = declareAll new ∧
      (∀ c ∈ between old new, Tells (declareAll old) (declareAll new) c) ∧
      ((between old new).map PortChange.portName).Nodup ∧
      (between old new = [] ↔ declareAll old = declareAll new) ∧
      ∀ (previous : Option ChangeRecord) (view : ServiceView),
        (ChangeRecord.compute (some (ChangeRecord.compute previous view))
          view).hasChanges = false := by
  simp only [← portMap_eq_declareAll]
  exact ⟨foldl_patch_between old new, fun _ => tells_of_mem, between_names_nodup old new,
    between_eq_nil_iff, ChangeRecord.hasChanges_compute_again⟩

/-- A name that is declared twice, one that goes, one that comes and one that
changes its protocol. -/
theorem between_exact_reordered :
    let old : List DeclaredPort :=
      [⟨"web", 80, "TCP"⟩, ⟨"dns", 53, "TCP"⟩, ⟨"web", 81, "TCP"⟩,
      ⟨"ssh", 22, "TCP"⟩]
    let new : List DeclaredPort :=
      [⟨"dns", 53, "UDP"⟩, ⟨"web", 81, "TCP"⟩, ⟨"ftp", 21, "TCP"⟩]
    let change : PortChange :=
      ⟨.modified, "dns", some 53, some 53, some "TCP", some "UDP"⟩
    (between old new).map PortChange.portName = ["dns", "ssh", "ftp"] ∧
      change ∈ between old new ∧ Tells (declareAll old) (declareAll new) change ∧
      (between old new).foldl patch (declareAll old) = declareAll new := by
  intro old new change
  obtain ⟨hpatch, htells, -⟩ := between_exact old new
  have hchanges : between old new =
    [change, ⟨.removed, "ssh", some 22, none, some "TCP", none⟩,
      ⟨.added, "ftp", none, some 21, none, some "TCP"⟩] := by cbv
  have hmem : change ∈ between old new := by simp [hchanges]
  exact ⟨by rw [hchanges]; rfl, hmem, htells change hmem, hpatch⟩

end PortForwarding.PortChange
