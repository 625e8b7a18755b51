import PortForwarding.Reservations

/-!
# Who holds a port

The view of the reservations is `holder?`; two of them with the same holders
answer everything alike. One equation an operation says what it does to the view,
so that nothing else has to look at the entries.
-/

namespace PortForwarding.Reservations

variable {r r' : Reservations} {key : ServiceKey} {port p : UInt16}

def Alike (r r' : Reservations) : Prop :=
  ∀ port, r.holder? port = r'.holder? port

theorem Alike.refl (r : Reservations) : r.Alike r := fun _ => rfl

theorem Alike.trans {r'' : Reservations} (h : r.Alike r') (h' : r'.Alike r'') :
    r.Alike r'' :=
  fun port => (h port).trans (h' port)

theorem holder?_eq_some_iff :
    r.holder? port = some key ↔ (port, key) ∈ r.entries := by
  unfold holder?
  constructor
  · intro h
    obtain ⟨before, after, hr, -⟩ := List.lookup_eq_some_iff.mp h
    rw [hr]
    simp
  · intro h
    obtain ⟨before, after, hr⟩ := List.append_of_mem h
    rw [List.lookup_eq_some_iff]
    refine ⟨before, after, hr, ?_⟩
    intro e he
    have hnd := r.ports_nodup
    rw [hr, List.map_append, List.nodup_append] at hnd
    have hne := hnd.2.2 e.1 (List.mem_map_of_mem he) port (by simp)
    simpa using Ne.symm hne

/-- The other view: a Service has the ports of which it is the holder. -/
theorem mem_portsOf : port ∈ r.portsOf key ↔ r.holder? port = some key := by
  unfold portsOf
  rw [List.mem_mergeSort, List.mem_map, holder?_eq_some_iff]
  constructor
  · rintro ⟨e, he, rfl⟩
    obtain ⟨hmem, hkey⟩ := List.mem_filter.mp he
    obtain rfl := of_decide_eq_true hkey
    exact hmem
  · intro h
    exact ⟨(port, key), List.mem_filter.mpr ⟨h, by simp⟩, rfl⟩

theorem holder?_only (test : UInt16 × ServiceKey → Bool) :
    (r.only test).holder? p = (r.holder? p).filter fun k => test (p, k) := by
  apply Option.ext
  intro k
  rw [holder?_eq_some_iff, Option.filter_eq_some_iff, holder?_eq_some_iff]
  exact List.mem_filter

theorem holder?_retain (keep : List UInt16) :
    (r.retain key keep).holder? p =
      if r.holder? p = some key ∧ p ∉ keep then none else r.holder? p := by
  unfold retain
  rw [holder?_only]
  cases hp : r.holder? p with
  | none => simp
  | some k =>
    by_cases hk : k = key <;> by_cases hkeep : p ∈ keep <;>
      simp [Option.filter, hk, hkeep]

theorem holder?_release :
    (r.release key port).holder? p =
      if p = port ∧ r.holder? p = some key then none else r.holder? p := by
  unfold release
  rw [holder?_only]
  cases hp : r.holder? p with
  | none => simp
  | some k =>
    by_cases hk : k = key <;> by_cases hport : p = port <;>
      simp [Option.filter, hk, hport]

theorem Alike.release (h : r.Alike r') :
    (r.release key port).Alike (r'.release key port) := by
  intro p
  rw [holder?_release, holder?_release, h p]

theorem holder?_reserve :
    (r.reserve key port).holder? p =
      if p = port ∧ r.holder? p = none then some key else r.holder? p := by
  unfold reserve
  split
  · next k hk =>
      by_cases hp : p = port
      · subst hp
        simp [hk]
      · simp [hp]
  · next hnone =>
      unfold holder? at hnone ⊢
      rw [List.lookup_append]
      by_cases hp : p = port
      · subst hp
        simp [hnone]
      · have hne : (p == port) = false := by simpa using hp
        simp [List.lookup_cons, hne, hp]

/-! ## Claims -/

/-- A claim meets a conflict exactly where another Service holds one of
the ports. -/
theorem conflict?_eq_none_iff (ports : List UInt16) :
    r.conflict? key ports = none ↔
      ∀ p ∈ ports, ∀ k, r.holder? p = some k → k = key := by
  unfold conflict?
  rw [List.findSome?_eq_none_iff]
  constructor
  · intro h p hp k hk
    have hnone := h p ((List.mem_mergeSort ..).mpr hp)
    simpa [hk] using hnone
  · intro h p hp
    have hown := h p ((List.mem_mergeSort ..).mp hp)
    cases hk : r.holder? p with
    | none => rfl
    | some k => simp [hown k hk]

theorem holder?_foldl_reserve (ports : List UInt16) :
    (ports.foldl (reserve key) r).holder? p =
      if p ∈ ports ∧ r.holder? p = none then some key else r.holder? p := by
  induction ports generalizing r with
  | nil => simp
  | cons q ports ih =>
    rw [List.foldl_cons, ih, holder?_reserve]
    by_cases hq : p = q <;> by_cases hp : p ∈ ports <;> cases h : r.holder? p <;>
      simp [hq, hp]

theorem holder?_of_claim {ports : List UInt16} (h : r.claim key ports = .ok r') :
    (∀ p ∈ ports, ∀ k, r.holder? p = some k → k = key) ∧
      ∀ p, r'.holder? p = if p ∈ ports then some key else r.holder? p := by
  unfold claim at h
  split at h
  · exact absurd h (by simp)
  · next hnone =>
      have hown := (conflict?_eq_none_iff ports).mp hnone
      refine ⟨hown, fun p => ?_⟩
      obtain rfl := Except.ok.inj h
      rw [holder?_foldl_reserve]
      cases hk : r.holder? p with
      | none => simp
      | some k =>
          by_cases hp : p ∈ ports
          · simp [hp, hown p hp k hk]
          · simp [hp]

theorem conflict?_of_claim {ports : List UInt16} {c : PortConflict}
    (h : r.claim key ports = .error c) : r.conflict? key ports = some c := by
  unfold claim at h
  split at h
  · next hconflict => exact hconflict.trans (congrArg some (Except.error.inj h))
  · exact absurd h (by simp)

theorem exists_claim {ports : List UInt16}
    (h : ∀ p ∈ ports, ∀ k, r.holder? p = some k → k = key) :
    ∃ r', r.claim key ports = .ok r' := by
  refine ⟨ports.foldl (reserve key) r, ?_⟩
  unfold claim
  rw [(conflict?_eq_none_iff ports).mpr h]

theorem claim_error_of_holder {ports : List UInt16} {k : ServiceKey}
    (hp : p ∈ ports) (hk : r.holder? p = some k) (hne : k ≠ key) :
    ∃ c, r.claim key ports = .error c := by
  unfold claim
  cases hc : r.conflict? key ports with
  | some c => exact ⟨c, rfl⟩
  | none => exact absurd ((conflict?_eq_none_iff ports).mp hc p hp k hk) hne

end PortForwarding.Reservations
