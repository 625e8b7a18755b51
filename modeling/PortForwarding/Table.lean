/-! # Tables

A finite map as a list of entries, one for a key. A new key goes to the end, so the
entries stand in the order in which their keys came.

`get?` is the view: see `get?_set`, `get?_erase` and `get?_filter`.
-/

namespace PortForwarding

/-- Keys with their values. No key comes twice. -/
structure Table (κ υ : Type) where
  entries : List (κ × υ)
  nodup : (entries.map Prod.fst).Nodup
  deriving DecidableEq, Repr

namespace Table

variable {κ υ : Type} [DecidableEq κ]

/-- The value under a key in a list of entries. -/
def find (key : κ) : List (κ × υ) → Option υ
  | [] => none
  | (k, v) :: rest => if k = key then some v else find key rest

/-- The entries with a value put under a key. -/
def put (key : κ) (value : υ) : List (κ × υ) → List (κ × υ)
  | [] => [(key, value)]
  | (k, v) :: rest => if k = key then (k, value) :: rest else (k, v) :: put key value rest

theorem mem_keys_put {key other : κ} {value : υ} {es : List (κ × υ)} :
    other ∈ (put key value es).map Prod.fst ↔
      other = key ∨ other ∈ es.map Prod.fst := by
  induction es with
  | nil => simp [put]
  | cons e es ih =>
    obtain ⟨k, v⟩ := e
    by_cases hk : k = key
    · subst hk; simp [put]
    · simp only [put, if_neg hk, List.map_cons, List.mem_cons, ih]
      constructor <;> rintro (h | h | h) <;> simp [h]

theorem nodup_put {key : κ} {value : υ} {es : List (κ × υ)}
    (h : (es.map Prod.fst).Nodup) :
    ((put key value es).map Prod.fst).Nodup := by
  induction es with
  | nil => simp [put]
  | cons e es ih =>
    obtain ⟨k, v⟩ := e
    simp only [List.map_cons, List.nodup_cons] at h
    by_cases hk : k = key
    · subst hk; simpa [put] using h
    · simp only [put, if_neg hk, List.map_cons, List.nodup_cons, mem_keys_put, not_or]
      exact ⟨⟨hk, h.1⟩, ih h.2⟩

omit [DecidableEq κ] in
theorem nodup_filter (keep : κ × υ → Bool) {es : List (κ × υ)}
    (h : (es.map Prod.fst).Nodup) :
    ((es.filter keep).map Prod.fst).Nodup :=
  h.sublist (List.filter_sublist.map Prod.fst)

def empty : Table κ υ := ⟨[], List.nodup_nil⟩

instance : Inhabited (Table κ υ) := ⟨empty⟩

def get? (t : Table κ υ) (key : κ) : Option υ :=
  find key t.entries

def set (t : Table κ υ) (key : κ) (value : υ) : Table κ υ :=
  ⟨put key value t.entries, nodup_put t.nodup⟩

/-- The entries whose key and value pass a test. -/
def filter (t : Table κ υ) (keep : κ → υ → Bool) : Table κ υ :=
  ⟨t.entries.filter fun e => keep e.1 e.2, nodup_filter _ t.nodup⟩

def erase (t : Table κ υ) (key : κ) : Table κ υ :=
  t.filter fun k _ => decide (k ≠ key)

def size (t : Table κ υ) : Nat :=
  t.entries.length

/-! ## The view -/

theorem find_put (key other : κ) (value : υ) (es : List (κ × υ)) :
    find other (put key value es) =
      if key = other then some value else find other es := by
  induction es with
  | nil => simp [put, find]
  | cons e es ih =>
    obtain ⟨k, v⟩ := e
    by_cases hk : k = key
    · subst hk; by_cases ho : k = other <;> simp [put, find, ho]
    · by_cases ho : k = other
      · subst ho; simp [put, find, hk, Ne.symm hk]
      · simp [put, find, hk, ho, ih]

theorem find_eq_none {key : κ} {es : List (κ × υ)} (h : key ∉ es.map Prod.fst) :
    find key es = none := by
  induction es with
  | nil => rfl
  | cons e es ih =>
    simp only [List.map_cons, List.mem_cons, not_or] at h
    simp [find, Ne.symm h.1, ih h.2]

theorem find_filter (keep : κ → υ → Bool) (key : κ) {es : List (κ × υ)}
    (h : (es.map Prod.fst).Nodup) :
    find key (es.filter fun e => keep e.1 e.2) = (find key es).filter (keep key) := by
  induction es with
  | nil => rfl
  | cons e es ih =>
    obtain ⟨k, v⟩ := e
    simp only [List.map_cons, List.nodup_cons] at h
    by_cases hk : k = key
    · subst hk
      have rest : find k (es.filter fun e => keep e.1 e.2) = none := by
        rw [ih h.2, find_eq_none h.1]; rfl
      cases hv : keep k v <;> simp [hv, find, rest, Option.filter]
    · cases hv : keep k v <;> simp [hv, find, hk, ih h.2]

theorem find_eq_some {key : κ} {value : υ} {es : List (κ × υ)}
    (h : (es.map Prod.fst).Nodup) :
    find key es = some value ↔ (key, value) ∈ es := by
  induction es with
  | nil => simp [find]
  | cons e es ih =>
    obtain ⟨k, v⟩ := e
    simp only [List.map_cons, List.nodup_cons] at h
    by_cases hk : k = key
    · subst hk
      have other : (k, value) ∉ es := fun hmem => h.1 (List.mem_map_of_mem hmem)
      simp [find, other, eq_comm]
    · simp [find, hk, Ne.symm hk, ih h.2]

theorem get?_eq_some {t : Table κ υ} {key : κ} {value : υ} :
    t.get? key = some value ↔ (key, value) ∈ t.entries :=
  find_eq_some t.nodup

@[simp] theorem get?_empty (key : κ) : (empty : Table κ υ).get? key = none := rfl

@[simp] theorem get?_set (t : Table κ υ) (key other : κ) (value : υ) :
    (t.set key value).get? other = if key = other then some value else t.get? other :=
  find_put key other value t.entries

@[simp] theorem get?_filter (t : Table κ υ) (keep : κ → υ → Bool) (key : κ) :
    (t.filter keep).get? key = (t.get? key).filter (keep key) :=
  find_filter keep key t.nodup

@[simp] theorem get?_erase (t : Table κ υ) (key other : κ) :
    (t.erase key).get? other = if key = other then none else t.get? other := by
  rw [erase, get?_filter]
  by_cases h : key = other
  · subst h; cases t.get? key <;> simp [Option.filter]
  · cases t.get? other <;> simp [Option.filter, h, Ne.symm h]

end Table

end PortForwarding
