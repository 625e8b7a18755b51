import PortForwarding.Proofs.Simulation.LockDesk

/-!
# Locks exclude, queue, and can be forgotten

`Fair` is what holds at a desk of locks at any time: one guard at a lock, who came
before all that wait for it; a client that comes has the lock at once exactly if
nobody is there; one that waits has it when all who came before it have gone; what
is asked about one lock changes nothing at the others; and the slots that are
dropped are those where nobody is.

`fair_run` says so of every run, and that two things make no difference to what is
replied in a run: when slots are dropped, and clients who come for other locks.
-/

namespace PortForwarding.Simulation.LockDesk

variable {d : LockDesk} {line : List (Nat × Seat)} {name other : String}
  {key : ServiceKey} {guard : Bool} {p q : Place}

def Has (d : LockDesk) (name : String) (p : Place) : Prop :=
  d.held.get? name = some p ∨ d.awaited.get? name = some p

def Idle (d : LockDesk) (key : ServiceKey) : Prop :=
  ∀ name p, d.Has name p → p.key ≠ key

/-- The locks that an ask is about: the one that the client comes for, and those
where it gives up its place. -/
def Concerns (d : LockDesk) (a : Ask) (key : ServiceKey) : Prop :=
  key ∈ a.key? ∨ ∃ p, d.Has a.name p ∧ p.key = key

/-- What holds at a desk of locks. Places are numbered in the order in which
clients come. -/
structure Fair (d : LockDesk) : Prop where
  /-- All who are at a lock refer to one mutex, the one in its slot. -/
  one_mutex : ∀ p ∈ d.locks.parties, d.locks.slots.get? p.key = some p.mutex
  one_guard : ∀ {name other p q}, d.held.get? name = some p → d.held.get? other = some q →
    p.key = q.key → name = other
  guard_first : ∀ {name other p q}, d.held.get? name = some p → d.Has other q →
    q.key = p.key → p.who ≤ q.who
  numbered : ∀ {name p}, d.Has name p → p.who < d.places
  /-- Who comes to a lock has it if nobody is there, and is last to wait for
  it otherwise. -/
  lock : ∀ name key, ((d.lock name key).1 = true ↔ d.Idle key) ∧
    ((d.lock name key).2.table (d.lock name key).1).get? name = some ⟨key, d.places⟩
  /-- Who does not want to wait has the lock if nobody is there, and
  nothing otherwise. -/
  tryLock : ∀ name key, ((d.tryLock name key).1 = true ↔ d.Idle key) ∧
    if (d.tryLock name key).1 then
      (d.tryLock name key).2.held.get? name = some ⟨key, d.places⟩
    else ∀ guard, (d.tryLock name key).2.table guard = d.table guard
  /-- Who waits has the lock as soon as it came before all others who are there. -/
  poll : ∀ name, ((d.poll name).1 = true ↔ ∃ p, d.awaited.get? name = some p ∧
      ∀ other q, d.Has other q → q.key = p.key → p.who ≤ q.who) ∧
    if (d.poll name).1 then (d.poll name).2.held.get? name = d.awaited.get? name ∧
      (d.poll name).2.awaited.get? name = none
    else (d.poll name).2 = d
  /-- Who leaves has no place any more. -/
  release : ∀ name, ((d.release name).1 = true ↔ ∃ p, d.Has name p) ∧
    ∀ p, ¬(d.release name).2.Has name p
  /-- Nobody gets or loses a place but the client who asks. -/
  others : ∀ a other, other ≠ a.name → ∀ p guard,
    ((d.serve a).2.table guard).get? other = some p ↔ (d.table guard).get? other = some p
  /-- What is asked about some locks changes nothing at the others. -/
  elsewhere : ∀ a key, ¬d.Concerns a key → ∀ guard name p, p.key = key →
    (((d.serve a).2.table guard).get? name = some p ↔ (d.table guard).get? name = some p)
  /-- The slots that are dropped are those where nobody is. -/
  prune : (∀ key, (d.Idle key → d.prune.2.locks.slots.get? key = none) ∧
      (¬d.Idle key → d.prune.2.locks.slots.get? key = d.locks.slots.get? key)) ∧
    d.prune.1 + d.prune.2.locks.size = d.locks.size ∧
    ∀ guard, d.prune.2.table guard = d.table guard

/-! ## One time -/

theorem has_iff : d.Has name p ↔ ∃ guard, (d.table guard).get? name = some p := by
  unfold Has table
  constructor
  · rintro (h | h)
    · exact ⟨true, h⟩
    · exact ⟨false, h⟩
  · rintro ⟨guard, h⟩
    cases guard with
    | true => exact Or.inl h
    | false => exact Or.inr h

theorem Seated.has_iff (h : Seated d line) :
    d.Has name p ↔ ∃ guard, seated name guard p ∈ line := by
  rw [LockDesk.has_iff]
  exact exists_congr fun guard => h.seats guard

theorem Seated.has_of_mem (h : Seated d line) {x : Nat × Seat} (hx : x ∈ line) :
    d.Has x.2.name ⟨x.2.key, x.1⟩ :=
  h.has_iff.mpr ⟨x.2.guard, hx⟩

theorem Seated.idle (h : Seated d line) : d.locks.Idle key ↔ d.Idle key := by
  unfold KeyLocks.Idle
  rw [h.asked, List.forall_mem_map]
  constructor
  · intro hidle name p hp
    obtain ⟨guard, hp⟩ := h.has_iff.mp hp
    exact hidle _ hp
  · intro hidle x hx
    exact hidle _ _ (h.has_of_mem hx)

theorem Seated.one_guard (h : Seated d line) (hp : d.held.get? name = some p)
    (hq : d.held.get? other = some q) (hkey : p.key = q.key) : name = other := by
  have hp := (h.seats true).mp hp
  have hq := (h.seats true).mp hq
  have hle : p.who ≤ q.who := h.first _ hp _ hq rfl hkey.symm
  have hge : q.who ≤ p.who := h.first _ hq _ hp rfl hkey
  have hsame := h.eq_of_number hp hq (Nat.le_antisymm hle hge)
  exact (seated_inj.mp hsame).1.2

theorem Seated.guard_first (h : Seated d line) (hp : d.held.get? name = some p)
    (hq : d.Has other q) (hkey : q.key = p.key) : p.who ≤ q.who := by
  have hp := (h.seats true).mp hp
  obtain ⟨guard, hq⟩ := h.has_iff.mp hq
  exact h.first _ hp _ hq rfl hkey

theorem Seated.fair_lock (h : Seated d line) (name : String) (key : ServiceKey) :
    ((d.lock name key).1 = true ↔ d.Idle key) ∧
      ((d.lock name key).2.table (d.lock name key).1).get? name =
        some ⟨key, d.places⟩ := by
  rw [lock_eq (h.isHeldBy_lock key), ← h.idle, h.idle_iff]
  refine ⟨Iff.rfl, ?_⟩
  rw [get?_take]
  simp

theorem Seated.fair_tryLock (h : Seated d line) (name : String) (key : ServiceKey) :
    ((d.tryLock name key).1 = true ↔ d.Idle key) ∧
      if (d.tryLock name key).1 then
        (d.tryLock name key).2.held.get? name = some ⟨key, d.places⟩
      else ∀ guard, (d.tryLock name key).2.table guard = d.table guard := by
  by_cases hidle : d.locks.Idle key
  · rw [tryLock_of_idle h.shared hidle]
    refine ⟨iff_of_true rfl (h.idle.mp hidle), ?_⟩
    show ((take _ true name _).table true).get? name = _
    rw [get?_take]
    simp
  · rw [tryLock_of_not_idle h.shared hidle]
    refine ⟨iff_of_false (by simp) fun hnobody => hidle (h.idle.mpr hnobody), ?_⟩
    exact fun _ => rfl

/-- A place has its lock exactly if it has the smallest number of all at
the lock. -/
theorem Seated.isHeldBy_iff_le (h : Seated d line) (hget : d.Has name p) :
    d.locks.isHeldBy p.key p.who = true ↔
      ∀ other q, d.Has other q → q.key = p.key → p.who ≤ q.who := by
  obtain ⟨guard, hp⟩ := h.has_iff.mp hget
  rw [h.isHeldBy_iff (s := ⟨name, p.key, guard⟩) hp]
  constructor
  · intro hfind other q hq hkey
    obtain ⟨guard', hq⟩ := h.has_iff.mp hq
    have hle : p.who ≤ q.who := h.le_of_find? hfind hq (decide_eq_true hkey)
    exact hle
  · intro hleast
    cases hfind : line.find? _ with
    | none => exact absurd (List.find?_eq_none.mp hfind _ hp) (by simp [seated])
    | some x =>
        have hx := List.mem_of_find?_eq_some hfind
        have hkey : x.2.key = p.key := by simpa using List.find?_some hfind
        have hle : x.1 ≤ p.who := h.le_of_find? hfind hp (decide_eq_true rfl)
        have hge : p.who ≤ x.1 := hleast _ _ (h.has_of_mem hx) hkey
        rw [h.eq_of_number hx hp (Nat.le_antisymm hle hge)]
        rfl

theorem Seated.fair_poll (h : Seated d line) (name : String) :
    ((d.poll name).1 = true ↔ ∃ p, d.awaited.get? name = some p ∧
        ∀ other q, d.Has other q → q.key = p.key → p.who ≤ q.who) ∧
      if (d.poll name).1 then (d.poll name).2.held.get? name = d.awaited.get? name ∧
        (d.poll name).2.awaited.get? name = none
      else (d.poll name).2 = d := by
  cases hget : d.awaited.get? name with
  | none =>
      rw [poll_of_none hget]
      simp
  | some p =>
      have hleast := h.isHeldBy_iff_le (Or.inr hget)
      cases hfirst : d.locks.isHeldBy p.key p.who with
      | true =>
          rw [poll_eq hget hfirst]
          refine ⟨iff_of_true rfl ⟨p, rfl, hleast.mp hfirst⟩, ?_, ?_⟩
          · show ((d.advance name p).table true).get? name = some p
            simp [get?_advance]
          · show ((d.advance name p).table false).get? name = none
            simp [get?_advance]
      | false =>
          rw [poll_eq hget hfirst]
          refine ⟨iff_of_false (by simp) ?_, rfl⟩
          rintro ⟨q, hq, hall⟩
          obtain rfl := Option.some.inj hq
          exact absurd ((hleast.mpr hall).symm.trans hfirst) (by decide)

theorem get?_release : ((d.release name).2.table guard).get? other =
    if other = name then none else (d.table guard).get? other := by
  rw [release_eq, table_vacate, table_vacate, table_vacate]
  cases guard <;> simp [eq_comm]

theorem fair_release (d : LockDesk) (name : String) :
    ((d.release name).1 = true ↔ ∃ p, d.Has name p) ∧
      ∀ p, ¬(d.release name).2.Has name p := by
  constructor
  · show ((d.held.get? name).isSome || (d.awaited.get? name).isSome) = true ↔ _
    rw [Bool.or_eq_true, Option.isSome_iff_exists, Option.isSome_iff_exists, ← exists_or]
    rfl
  · intro p hhas
    obtain ⟨guard, hget⟩ := has_iff.mp hhas
    rw [get?_release, if_pos rfl] at hget
    exact absurd hget (by simp)

/-! ## Other locks -/

theorem tryLock_eq (d : LockDesk) (name : String) (key : ServiceKey) :
    d.tryLock name key = ((d.locks.tryLock key d.places).1,
      if (d.locks.tryLock key d.places).1 then
        take
          { d with locks := (d.locks.tryLock key d.places).2, places := d.places + 1 }
          true name ⟨key, d.places⟩
      else
        { d with locks := (d.locks.tryLock key d.places).2, places := d.places + 1 }) :=
  rfl

theorem get?_serve {a : Ask} (hother : other ≠ a.name) :
    ((d.serve a).2.table guard).get? other = (d.table guard).get? other := by
  cases a with
  | lock name key =>
      show ((d.lock name key).2.table guard).get? other = _
      rw [lock_eq rfl, get?_take, if_neg fun hself => hother hself.2]
      rfl
  | tryLock name key =>
      show ((d.tryLock name key).2.table guard).get? other = _
      rw [tryLock_eq]
      cases (d.locks.tryLock key d.places).1 with
      | true =>
          show ((take _ true name _).table guard).get? other = _
          rw [get?_take, if_neg fun hself => hother hself.2]
          rfl
      | false => rfl
  | poll name =>
      have hother : other ≠ name := hother
      show ((d.poll name).2.table guard).get? other = _
      cases hget : d.awaited.get? name with
      | none => rw [poll_of_none hget]
      | some p =>
          rw [poll_eq hget rfl]
          cases d.locks.isHeldBy p.key p.who with
          | true => exact get?_advance.trans (if_neg hother)
          | false => rfl
  | release name =>
      have hother : other ≠ name := hother
      exact get?_release.trans (if_neg hother)

theorem eq_or_of_take (guard' : Bool)
    (h : ((d.take guard' name q).table guard).get? name = some p) :
    q = p ∨ (d.table guard).get? name = some p := by
  rw [get?_take] at h
  split at h
  · exact Or.inl (Option.some.inj h)
  · exact Or.inr h

/-- Who asks gets no place but at the lock that it comes for, or where it
had one. -/
theorem concerns_of_serve {a : Ask}
    (h : ((d.serve a).2.table guard).get? a.name = some p) :
    d.Concerns a p.key := by
  have hhad : ∀ guard, (d.table guard).get? a.name = some p → d.Concerns a p.key :=
    fun guard hget => Or.inr ⟨p, has_iff.mpr ⟨guard, hget⟩, rfl⟩
  cases a with
  | lock name key =>
      change ((d.lock name key).2.table guard).get? name = some p at h
      rw [lock_eq rfl] at h
      rcases eq_or_of_take _ h with rfl | hget
      · exact Or.inl rfl
      · exact hhad _ hget
  | tryLock name key =>
      change ((d.tryLock name key).2.table guard).get? name = some p at h
      rw [tryLock_eq] at h
      cases hgot : (d.locks.tryLock key d.places).1 with
      | true =>
          simp only [hgot, if_true] at h
          rcases eq_or_of_take _ h with rfl | hget
          · exact Or.inl rfl
          · exact hhad _ hget
      | false =>
          rw [hgot] at h
          exact hhad _ h
  | poll name =>
      change ((d.poll name).2.table guard).get? name = some p at h
      cases hawaited : d.awaited.get? name with
      | none =>
          rw [poll_of_none hawaited] at h
          exact hhad _ h
      | some q =>
          rw [poll_eq hawaited rfl] at h
          cases hgot : d.locks.isHeldBy q.key q.who with
          | true =>
              rw [hgot] at h
              have hplace : (if guard then some q else none) = some p :=
                (get?_advance.trans (if_pos rfl)).symm.trans h
              obtain ⟨-, hsame⟩ := Option.ite_none_right_eq_some.mp hplace
              exact Or.inr ⟨q, Or.inr hawaited,
                congrArg Place.key (Option.some.inj hsame)⟩
          | false =>
              rw [hgot] at h
              exact hhad _ h
  | release name =>
      exact absurd (has_iff.mpr ⟨guard, h⟩) ((fair_release d name).2 p)

theorem fair_elsewhere (d : LockDesk) (a : Ask) (key : ServiceKey)
    (h : ¬d.Concerns a key) (guard : Bool) (name : String) (p : Place)
    (hkey : p.key = key) :
    ((d.serve a).2.table guard).get? name = some p ↔
      (d.table guard).get? name = some p := by
  subst hkey
  by_cases hname : name = a.name
  · subst hname
    refine iff_of_false (fun hget => h (concerns_of_serve hget)) fun hget => ?_
    exact h (Or.inr ⟨p, has_iff.mpr ⟨_, hget⟩, rfl⟩)
  · rw [get?_serve hname]

theorem Seated.fair_prune (h : Seated d line) :
    (∀ key, (d.Idle key → d.prune.2.locks.slots.get? key = none) ∧
      (¬d.Idle key → d.prune.2.locks.slots.get? key = d.locks.slots.get? key)) ∧
    d.prune.1 + d.prune.2.locks.size = d.locks.size ∧
    ∀ guard, d.prune.2.table guard = d.table guard := by
  refine ⟨fun key => ?_, ?_, fun guard => rfl⟩
  · rw [← h.idle]
    exact h.shared.get?_prune key
  · have hle : d.locks.prune.size ≤ d.locks.size := List.length_filter_le _ _
    exact Nat.sub_add_cancel hle

theorem Seated.fair (h : Seated d line) : Fair d where
  one_mutex := h.shared.slot
  one_guard := h.one_guard
  guard_first := h.guard_first
  numbered := by
    intro name p hp
    obtain ⟨guard, hp⟩ := h.has_iff.mp hp
    exact h.below _ hp
  lock := h.fair_lock
  tryLock := h.fair_tryLock
  poll := h.fair_poll
  release := fair_release d
  others := fun a other hother p guard => by rw [get?_serve hother]
  elsewhere := fair_elsewhere d
  prune := h.fair_prune

/-! ## All runs -/

theorem asks_map (as : List Ask) : asks (as.map .ask) = as := by
  induction as with
  | nil => rfl
  | cons a as ih => exact congrArg (a :: ·) ih

/-- **Locks exclude, queue, and are forgotten unnoticed.** Whatever clients have
asked of a desk, and whenever slots were dropped, the desk is fair. When slots are
dropped makes no difference to what is replied. Neither do clients who come for
other locks than those in `mine`, to clients who come for those alone. -/
theorem fair_run (steps : List Step) :
    Fair (empty.after steps) ∧
      (∀ steps', asks steps' = asks steps →
        empty.replies steps' = empty.replies steps) ∧
      ∀ (keep : String → Bool) (mine : ServiceKey → Bool),
        (∀ a ∈ asks steps, ∀ key ∈ a.key?, keep a.name = mine key) →
        (empty.replies steps).filter (fun x => keep x.1.name) =
          empty.replies (((asks steps).filter fun a => keep a.name).map .ask) := by
  refine ⟨?_, ?_, ?_⟩
  · obtain ⟨line, h⟩ := seated_empty.after steps
    exact h.fair
  · intro steps' hasks
    rw [seated_empty.replies_eq, seated_empty.replies_eq, hasks]
  · intro keep mine hasks
    have hapart : Lineup.Apart keep mine [] := fun s hs => absurd hs (by simp)
    rw [seated_empty.replies_eq, seated_empty.replies_eq, asks_map]
    exact Lineup.replies_filter hapart hasks

/-- A lock that is held, awaited and asked for, beside another one, with slots
dropped on the way. -/
theorem fair_run_dropped :
    let web : ServiceKey := ⟨"default", "web"⟩
    let mail : ServiceKey := ⟨"default", "mail"⟩
    let asked : List Ask := [.lock "a" web, .lock "m" mail, .lock "b" web, .release "a",
      .tryLock "c" web, .poll "b", .release "m"]
    let steps : List Step := [.ask (.lock "a" web), .ask (.lock "m" mail), .prune,
      .ask (.lock "b" web), .ask (.release "a"), .prune, .ask (.tryLock "c" web),
      .ask (.poll "b"), .ask (.release "m"), .prune]
    Fair (empty.after steps) ∧
      empty.replies (asked.map .ask) = empty.replies steps ∧
      (empty.replies steps).filter (fun x => x.1.name != "m") =
        [(.lock "a" web, true), (.lock "b" web, false), (.release "a", true),
          (.tryLock "c" web, false), (.poll "b", true)] := by
  intro web mail asked steps
  obtain ⟨hfair, hdropped, hothers⟩ := fair_run steps
  refine ⟨hfair, hdropped (asked.map .ask) (asks_map asked), ?_⟩
  refine (hothers (· != "m") (· != mail) ?_).trans ?_
  · decide
  · decide

end PortForwarding.Simulation.LockDesk
