import Mathlib.Data.List.Forall2
import PortForwarding.Json.Row

/-!
# Fields of records

How the fields of a record are found and read. An object is one record whatever
the order of its members (`row_perm`), a field that is said at most once is found
(`rowOfMembers_cons`), and what is written for a value of a field is read as this
value. `Tells` is what an object says of a field; with it, what a reader takes is
told from the members alone (`required_iff`, `defaulted_iff`, `optional_iff`).
-/

namespace PortForwarding.Json

/-! ## Finding fields -/

variable {name : String} {names : List String}
  {members members' : List (String × Json)} {values : List (Option Json)}

theorem valuesOf_append (members rest : List (String × Json)) :
    valuesOf name (members ++ rest) =
      valuesOf name members ++ valuesOf name rest := by
  unfold valuesOf
  rw [List.filter_append, List.map_append]

theorem valuesOf_optional {α : Type} (field : String) (write : α → Json)
    (value : Option α) :
    valuesOf name (value.map fun a => (field, write a)).toList =
      if field = name then (value.map write).toList else [] := by
  cases value with
  | none => simp [valuesOf]
  | some a =>
      by_cases h : field = name
      · simp [valuesOf, h]
      · simp [valuesOf, h]

theorem rowOfMembers_cons (value : Option Json)
    (h : valuesOf name members = value.toList) :
    rowOfMembers members (name :: names) =
      (rowOfMembers members names).map (value :: ·) := by
  cases value with
  | none =>
      have hnone : valuesOf name members = [] := h
      simp only [rowOfMembers, hnone]
  | some j =>
      have hsome : valuesOf name members = [j] := h
      simp only [rowOfMembers, hsome]

theorem rowOfMembers_eq_some
    (h : rowOfMembers members (name :: names) = some values) :
    ∃ value rest, values = value :: rest ∧ valuesOf name members = value.toList ∧
      rowOfMembers members names = some rest := by
  unfold rowOfMembers at h
  split at h
  · next hnone =>
      obtain ⟨rest, hrest, rfl⟩ := Option.map_eq_some_iff.mp h
      exact ⟨none, rest, rfl, hnone, hrest⟩
  · next value hone =>
      obtain ⟨rest, hrest, rfl⟩ := Option.map_eq_some_iff.mp h
      exact ⟨some value, rest, rfl, hone, hrest⟩
  · exact absurd h (by simp)

theorem rowOfMembers_perm (h : members.Perm members') :
    rowOfMembers members names = rowOfMembers members' names := by
  induction names with
  | nil => rfl
  | cons name names ih =>
      have hvalues : (valuesOf name members).Perm (valuesOf name members') :=
        (h.filter _).map _
      unfold rowOfMembers
      rw [ih]
      -- nothing, one value, or too many of them, in whatever order
      match hleft : valuesOf name members with
      | [] =>
          rw [hleft] at hvalues
          rw [hvalues.symm.eq_nil]
      | [value] =>
          rw [hleft] at hvalues
          rw [List.singleton_perm.mp hvalues]
      | first :: second :: more =>
          rw [hleft] at hvalues
          have hlength := hvalues.length_eq
          match hright : valuesOf name members' with
          | [] => simp [hright] at hlength
          | [value] => simp [hright] at hlength
          | first' :: second' :: more' => rfl

/-- **The order of the members of an object makes no difference to a record.** -/
theorem row_perm (h : members.Perm members') :
    (Json.obj members).row names = (Json.obj members').row names :=
  rowOfMembers_perm h

/-- What the members of an object say of a field: one value, or nothing at all. -/
def Tells (members : List (String × Json)) (name : String) (value : Option Json) :
    Prop :=
  valuesOf name members = value.toList

/-- **The fields of an object** are what its members say of them, one by one. -/
theorem row_obj_iff :
    (Json.obj members).row names = some values ↔
      List.Forall₂ (Tells members) names values := by
  show rowOfMembers members names = some values ↔ _
  induction names generalizing values with
  | nil => simp [rowOfMembers, eq_comm]
  | cons name names ih =>
      constructor
      · intro h
        obtain ⟨value, rest, rfl, hvalue, hrest⟩ := rowOfMembers_eq_some h
        exact List.Forall₂.cons hvalue (ih.mp hrest)
      · rintro (_ | ⟨hvalue, hrest⟩)
        rw [rowOfMembers_cons _ hvalue, ih.mpr hrest]
        rfl

/-! ## Reading values -/

theorem text?_eq_some_iff {j : Json} {s : String} :
    text? j = some s ↔ j = .str s := by
  cases j <;> simp [text?]

theorem bool?_eq_some_iff {j : Json} {b : Bool} : bool? j = some b ↔ j = .bool b := by
  cases j <;> simp [bool?]

theorem word16?_nat (n : UInt16) : word16? (.nat n.toNat) = some n := by
  have hn : n.toNat < 65536 := n.toNat_lt
  have hread : (Json.nat n.toNat).natBelow? 65536 = some n.toNat := by
    simp [natBelow?, Json.nat, nat?, Option.filter, hn]
  unfold word16?
  rw [hread]
  simp

theorem word32?_nat (n : UInt32) : word32? (.nat n.toNat) = some n := by
  have hn : n.toNat < 4294967296 := n.toNat_lt
  have hread : (Json.nat n.toNat).natBelow? 4294967296 = some n.toNat := by
    simp [natBelow?, Json.nat, nat?, Option.filter, hn]
  unfold word32?
  rw [hread]
  simp

theorem optional_word16 (port : Option UInt16) :
    optional word16? (port.map fun p => Json.nat p.toNat) = some port := by
  cases port with
  | none => rfl
  | some p =>
      show (word16? (.nat p.toNat)).map some = _
      rw [word16?_nat]
      rfl

theorem optional_text (e : Option String) : optional text? (e.map .str) = some e := by
  cases e <;> rfl

theorem optional_orNull (s : Option String) :
    optional text? (some (orNull (s.map .str))) = some s := by
  cases s <;> rfl

theorem listOf?_arr {α : Type} {read : Json → Option α} {write : α → Json}
    (h : ∀ a, read (write a) = some a) (items : List α) :
    listOf? read (.arr (items.map write)) = some items := by
  show (items.map write).mapM read = some items
  induction items with
  | nil => rfl
  | cons a items ih => simp [List.mapM_cons, h a, ih]

/-- A list each of whose items can be read has the values of all of them. -/
theorem listOf?_of_forall {α : Type} {read : Json → Option α} {items : List Json}
    (h : ∀ j ∈ items, ∃ a, read j = some a) :
    listOf? read (.arr items) = some (items.filterMap read) := by
  show items.mapM read = _
  induction items with
  | nil => rfl
  | cons j items ih =>
      obtain ⟨a, ha⟩ := h j List.mem_cons_self
      have hrest := ih fun k hk => h k (List.mem_cons_of_mem j hk)
      rw [List.mapM_cons, ha, hrest, List.filterMap_cons_some ha]
      rfl

theorem listOf?_of_mem {α : Type} {read : Json → Option α} {items : List Json}
    {j : Json} (hj : j ∈ items) (h : read j = none) :
    listOf? read (.arr items) = none := by
  show items.mapM read = none
  induction items with
  | nil => exact absurd hj List.not_mem_nil
  | cons k items ih =>
      rw [List.mapM_cons]
      rcases List.mem_cons.mp hj with rfl | hj
      · rw [h]
        rfl
      · rw [ih hj]
        cases read k <;> rfl

/-! ## What readers take -/

section

variable {α : Type} {read : Json → Option α} {write : α → Json} {a initial : α}

theorem required_iff (hread : ∀ {j a}, read j = some a ↔ j = write a) :
    (∃ value, Tells members name value ∧ required read value = some a) ↔
      Tells members name (some (write a)) := by
  constructor
  · rintro ⟨_ | j, htells, h⟩
    · exact absurd h (by simp [required])
    · exact hread.mp h ▸ htells
  · exact fun htells => ⟨_, htells, hread.mpr rfl⟩

theorem defaulted_iff (hread : ∀ {j a}, read j = some a ↔ j = write a) :
    (∃ value, Tells members name value ∧ defaulted initial read value = some a) ↔
      Tells members name (some (write a)) ∨
        a = initial ∧ Tells members name none := by
  constructor
  · rintro ⟨_ | j, htells, h⟩
    · exact Or.inr ⟨(Option.some.inj h).symm, htells⟩
    · exact Or.inl (hread.mp h ▸ htells)
  · rintro (htells | ⟨rfl, htells⟩)
    · exact ⟨_, htells, hread.mpr rfl⟩
    · exact ⟨none, htells, rfl⟩

theorem optional_iff {a : Option String} :
    (∃ value, Tells members name value ∧ optional text? value = some a) ↔
      Tells members name (a.map .str) ∨
        a = none ∧ Tells members name (some .null) := by
  constructor
  · rintro ⟨value, htells, h⟩
    unfold optional at h
    split at h
    · obtain rfl := Option.some.inj h
      exact Or.inl htells
    · obtain rfl := Option.some.inj h
      exact Or.inr ⟨rfl, htells⟩
    · obtain ⟨s, hs, rfl⟩ := Option.map_eq_some_iff.mp h
      obtain rfl := text?_eq_some_iff.mp hs
      exact Or.inl htells
  · rintro (htells | ⟨rfl, htells⟩)
    · exact ⟨_, htells, optional_text a⟩
    · exact ⟨_, htells, rfl⟩

end

end PortForwarding.Json
