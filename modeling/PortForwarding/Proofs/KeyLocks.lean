import Mathlib.Data.List.Nodup
import PortForwarding.KeyLocks

/-!
# Who shares a lock

Whoever asks for a lock comes to the mutex of all who are at it already
(`Shared`), whatever slots have been dropped before: the parties to a mutex count
as references, so that the slot of a lock is kept as long as anyone is there
(`Shared.one_lt_references`).

With this a lock is known by who has asked for it (`asked`), and neither mutexes
nor slots matter any more: what each operation answers and does to `asked` is said
below without them.
-/

namespace PortForwarding.KeyLocks

variable {κ η : Type} [DecidableEq κ] {l : KeyLocks κ η} {key other : κ} {who : η}
  {mutex : Nat}

/-- All who are at a lock are at the mutex in its slot, and no mutex is in
two slots. -/
structure Shared (l : KeyLocks κ η) : Prop where
  slot : ∀ p ∈ l.parties, l.slots.get? p.key = some p.mutex
  apart : ∀ {key other mutex}, l.slots.get? key = some mutex →
    l.slots.get? other = some mutex → key = other
  made : ∀ {key mutex}, l.slots.get? key = some mutex → mutex < l.made

omit [DecidableEq κ] in
/-- Who is at the locks, and at which of them, in the order in which they came. -/
def asked (l : KeyLocks κ η) : List (κ × η) :=
  l.parties.map fun p => (p.key, p.who)

def Idle (l : KeyLocks κ η) (key : κ) : Prop :=
  ∀ x ∈ l.asked, x.1 ≠ key

omit [DecidableEq κ] in
theorem idle_iff : l.Idle key ↔ ∀ p ∈ l.parties, p.key ≠ key := by
  unfold Idle asked
  constructor
  · intro h p hp
    exact h _ (List.mem_map_of_mem hp)
  · intro h x hx
    obtain ⟨p, hp, rfl⟩ := List.mem_map.mp hx
    exact h p hp

/-! ## References -/

/-- The parties to the mutex in a slot are those who asked for its key. -/
theorem Shared.queue_eq (h : l.Shared) (hslot : l.slots.get? key = some mutex) :
    l.queue mutex = l.parties.filter fun p => decide (p.key = key) := by
  apply List.filter_congr
  intro p hp
  have hparty := h.slot p hp
  apply decide_eq_decide.mpr
  constructor
  · intro hmutex
    exact h.apart (hmutex ▸ hparty) hslot
  · intro hkey
    rw [hkey, hslot] at hparty
    exact (Option.some.inj hparty).symm

theorem Shared.queue_eq_nil (h : l.Shared) (hslot : l.slots.get? key = some mutex) :
    l.queue mutex = [] ↔ l.Idle key := by
  rw [h.queue_eq hslot, idle_iff, List.filter_eq_nil_iff]
  simp

theorem Shared.slots_eq (h : l.Shared) (hslot : l.slots.get? key = some mutex) :
    (l.slots.entries.filter fun e => decide (e.2 = mutex)).length = 1 := by
  have hsame : ∀ e ∈ l.slots.entries.filter fun e => decide (e.2 = mutex), e.1 = key := by
    intro e he
    obtain ⟨hmem, hmutex⟩ := List.mem_filter.mp he
    have hget : l.slots.get? e.1 = some mutex :=
      Table.get?_eq_some.mpr (of_decide_eq_true hmutex ▸ hmem)
    exact h.apart hget hslot
  have hnodup := Table.nodup_filter (fun e => decide (e.2 = mutex)) l.slots.nodup
  have hmem : (key, mutex) ∈ l.slots.entries.filter fun e => decide (e.2 = mutex) :=
    List.mem_filter.mpr ⟨Table.get?_eq_some.mp hslot, by simp⟩
  apply Nat.le_antisymm
  · -- all of them stand under one key
    have hkeys : (l.slots.entries.filter fun e => decide (e.2 = mutex)).map Prod.fst =
        List.replicate
          (l.slots.entries.filter fun e => decide (e.2 = mutex)).length key := by
      apply List.eq_replicate_iff.mpr
      refine ⟨List.length_map _, fun k hk => ?_⟩
      obtain ⟨e, he, rfl⟩ := List.mem_map.mp hk
      exact hsame e he
    rw [hkeys] at hnodup
    exact List.nodup_replicate.mp hnodup
  · exact List.length_pos_of_mem hmem

/-- **Nothing but its slot refers to a mutex exactly if nobody is at the lock.** -/
theorem Shared.one_lt_references (h : l.Shared)
    (hslot : l.slots.get? key = some mutex) :
    1 < l.references mutex ↔ ¬l.Idle key := by
  rw [← h.queue_eq_nil hslot]
  unfold references
  rw [h.slots_eq hslot, ← List.length_eq_zero_iff]
  omega

/-! ## Operations -/

theorem shared_empty : (empty : KeyLocks κ η).Shared := by
  refine ⟨?_, ?_, ?_⟩
  · intro p hp
    exact absurd hp (by simp [empty])
  · intro key other mutex hget
    exact absurd hget (by simp [empty])
  · intro key mutex hget
    exact absurd hget (by simp [empty])

/-- After its mutex was looked for, a key has a slot, and nobody has come
or gone. -/
theorem get?_slot (l : KeyLocks κ η) (key : κ) :
    (l.slot key).2.slots.get? key = some (l.slot key).1 ∧
      (l.slot key).2.parties = l.parties := by
  unfold slot
  split
  · next mutex hget => exact ⟨hget, rfl⟩
  · exact ⟨by simp, rfl⟩

theorem Shared.slotted (h : l.Shared) (key : κ) : (l.slot key).2.Shared := by
  unfold KeyLocks.slot
  split
  · exact h
  · next hnone =>
      refine ⟨?_, ?_, ?_⟩
      · intro p hp
        have hget := h.slot p hp
        have hne : key ≠ p.key := by
          rintro rfl
          rw [hnone] at hget
          exact absurd hget (by simp)
        show (l.slots.set key l.made).get? p.key = _
        rw [Table.get?_set, if_neg hne, hget]
      · -- the new mutex is none of those that are in slots
        intro k k' mutex hk hk'
        simp only [Table.get?_set] at hk hk'
        split at hk <;> split at hk'
        · next heq heq' => exact heq.symm.trans heq'
        · obtain rfl := Option.some.inj hk
          exact absurd (h.made hk') (Nat.lt_irrefl _)
        · obtain rfl := Option.some.inj hk'
          exact absurd (h.made hk) (Nat.lt_irrefl _)
        · exact h.apart hk hk'
      · intro k mutex hk
        simp only [Table.get?_set] at hk
        split at hk
        · obtain rfl := Option.some.inj hk
          exact Nat.lt_succ_self _
        · exact Nat.lt_succ_of_lt (h.made hk)

/-- Who comes to the mutex in the slot of its key shares it with all others. -/
theorem Shared.join (h : l.Shared) {p : Party κ η}
    (hslot : l.slots.get? p.key = some p.mutex) : (l.join p).Shared := by
  refine ⟨?_, h.apart, h.made⟩
  intro q hq
  rcases List.mem_append.mp hq with hq | hq
  · exact h.slot q hq
  · rw [List.mem_singleton.mp hq]
    exact hslot

theorem Shared.lock (h : l.Shared) (key : κ) (who : η) : (l.lock key who).Shared :=
  (h.slotted key).join (get?_slot l key).1

theorem asked_lock (l : KeyLocks κ η) (key : κ) (who : η) :
    (l.lock key who).asked = l.asked ++ [(key, who)] := by
  have hparties := (get?_slot l key).2
  simp [KeyLocks.lock, KeyLocks.join, asked, hparties]

theorem tryLock_of_idle (h : l.Shared) (hidle : l.Idle key) (who : η) :
    l.tryLock key who = (true, l.lock key who) := by
  obtain ⟨hslot, hparties⟩ := get?_slot l key
  have hidle' : (l.slot key).2.Idle key := by
    rw [idle_iff] at hidle ⊢
    rwa [hparties]
  have hqueue := ((h.slotted key).queue_eq_nil hslot).mpr hidle'
  unfold tryLock KeyLocks.lock
  simp [hqueue]

theorem tryLock_of_not_idle (h : l.Shared) (hidle : ¬l.Idle key) (who : η) :
    l.tryLock key who = (false, l) := by
  obtain ⟨p, hp, rfl⟩ : ∃ p ∈ l.parties, p.key = key := by
    simpa [idle_iff] using hidle
  have hslot := h.slot p hp
  have hqueue := mt (h.queue_eq_nil hslot).mp hidle
  unfold tryLock KeyLocks.slot
  simp [hslot, hqueue]

theorem Shared.prune (h : l.Shared) : l.prune.Shared := by
  have hget : ∀ {k m}, l.prune.slots.get? k = some m → l.slots.get? k = some m := by
    intro k m hk
    simp only [KeyLocks.prune, Table.get?_filter] at hk
    exact Option.filter_eq_some_iff.mp hk |>.1
  refine ⟨?_, fun hk hk' => h.apart (hget hk) (hget hk'), fun hk => h.made (hget hk)⟩
  intro p hp
  have hslot := h.slot p hp
  have hparty : ¬l.Idle p.key := fun hidle => idle_iff.mp hidle p hp rfl
  have hkept := (h.one_lt_references hslot).mpr hparty
  simp [KeyLocks.prune, hslot, Option.filter, hkept]

/-- **The slots that are dropped are those of locks where nobody is.** -/
theorem Shared.get?_prune (h : l.Shared) (key : κ) :
    (l.Idle key → l.prune.slots.get? key = none) ∧
      (¬l.Idle key → l.prune.slots.get? key = l.slots.get? key) := by
  cases hslot : l.slots.get? key with
  | none => simp [KeyLocks.prune, hslot]
  | some mutex =>
      have hrefs := h.one_lt_references hslot
      constructor
      · intro hidle
        have hone : ¬1 < l.references mutex := fun hlt => hrefs.mp hlt hidle
        simp [KeyLocks.prune, hslot, Option.filter, hone]
      · intro hidle
        simp [KeyLocks.prune, hslot, Option.filter, hrefs.mpr hidle]

variable [DecidableEq η]

theorem Shared.release (h : l.Shared) (key : κ) (who : η) :
    (l.release key who).Shared :=
  ⟨fun p hp => h.slot p (List.mem_filter.mp hp).1, h.apart, h.made⟩

theorem asked_release (l : KeyLocks κ η) (key : κ) (who : η) :
    (l.release key who).asked = l.asked.filter fun x => decide (x ≠ (key, who)) := by
  unfold KeyLocks.release asked
  rw [List.filter_map]
  congr 1
  apply List.filter_congr
  intro p hp
  simp

/-- **A lock is held by who came first of those who are at it.** -/
theorem Shared.isHeldBy_iff (h : l.Shared) :
    l.isHeldBy key who = true ↔
      l.asked.find? (fun x => decide (x.1 = key)) = some (key, who) := by
  have hasked : l.asked.find? (fun x => decide (x.1 = key)) =
      (l.parties.find? fun p => decide (p.key = key)).map fun p => (p.key, p.who) := by
    unfold asked
    rw [List.find?_map]
    rfl
  rw [hasked]
  constructor
  · intro hheld
    unfold isHeldBy at hheld
    split at hheld
    · next p hfind =>
        have hp := List.mem_of_find?_eq_some hfind
        have hasks := List.find?_some hfind
        obtain ⟨rfl, rfl⟩ : p.key = key ∧ p.who = who := by simpa using hasks
        rw [h.queue_eq (h.slot p hp), List.head?_filter] at hheld
        rw [eq_of_beq hheld]
        rfl
    · exact absurd hheld (by simp)
  · intro hfirst
    obtain ⟨p, hfind, heq⟩ := Option.map_eq_some_iff.mp hfirst
    obtain ⟨rfl, rfl⟩ := Prod.mk.inj heq
    obtain ⟨-, before, after, hparties, hothers⟩ := List.find?_eq_some_iff_append.mp hfind
    -- nobody before has asked for the key, and so nobody else under the name
    have hself : l.parties.find? (fun q =>
        decide (q.key = p.key ∧ q.who = p.who)) = some p := by
      apply List.find?_eq_some_iff_append.mpr
      refine ⟨by simp, before, after, hparties, ?_⟩
      intro q hq
      have hother := hothers q hq
      simp only [Bool.not_eq_true', decide_eq_false_iff_not] at hother ⊢
      exact fun hsame => hother hsame.1
    have hp := List.mem_of_find?_eq_some hfind
    unfold isHeldBy
    rw [hself]
    show ((l.queue p.mutex).head? == some p) = true
    rw [h.queue_eq (h.slot p hp), List.head?_filter, hfind, beq_self_eq_true]

end PortForwarding.KeyLocks
