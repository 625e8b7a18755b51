import Mathlib.Data.List.Nodup
import PortForwarding.Proofs.KeyLocks
import PortForwarding.Proofs.Simulation.Lineup

/-!
# A desk serves clients as the line does

A desk replies to whatever it is asked as the line of clients would
(`Seated.replies_eq`): the mutexes, the references to them, and the slots that are
dropped from time to time do not show.

The invariant is `Seated`. It numbers the clients in line by the places that the
desk has given out, which grow as clients come, and it goes with every step
(`Seated.serve`, `Seated.prune`).
-/

namespace PortForwarding.Simulation.LockDesk

/-! ## Runs -/

def serve (d : LockDesk) : Ask → Bool × LockDesk
  | .lock name key => d.lock name key
  | .tryLock name key => d.tryLock name key
  | .poll name => d.poll name
  | .release name => d.release name

/-- What happens at a desk: a client asks for something, or slots are dropped. -/
inductive Step where
  | ask (a : Ask)
  | prune
  deriving DecidableEq, Repr

def after (d : LockDesk) : List Step → LockDesk
  | [] => d
  | .ask a :: steps => (d.serve a).2.after steps
  | .prune :: steps => d.prune.2.after steps

def replies (d : LockDesk) : List Step → List (Ask × Bool)
  | [] => []
  | .ask a :: steps => (a, (d.serve a).1) :: (d.serve a).2.replies steps
  | .prune :: steps => d.prune.2.replies steps

def asks : List Step → List Ask
  | [] => []
  | .ask a :: steps => a :: asks steps
  | .prune :: steps => asks steps

/-! ## Places -/

variable {d d' : LockDesk} {name other : String} {key : ServiceKey} {guard : Bool}
  {p q : Place}

def table (d : LockDesk) (guard : Bool) : Table String Place :=
  if guard then d.held else d.awaited

def take (d : LockDesk) (guard : Bool) (name : String) (p : Place) : LockDesk :=
  if guard then d.hold name p else d.await name p

theorem leave_eq (d : LockDesk) (p : Option Place) :
    d.leave p = { d with
      locks := p.elim d.locks fun p => d.locks.release p.key p.who } := by
  cases p <;> rfl

theorem places_leave (p : Option Place) : (d.leave p).places = d.places := by
  cases p <;> rfl

theorem locks_take :
    (d.take guard name p).locks =
      (d.leave ((d.table guard).get? name)).locks := by
  cases guard <;> rfl

theorem places_take : (d.take guard name p).places = d.places := by
  cases guard
  · exact places_leave _
  · exact places_leave _

theorem table_take {guard' : Bool} :
    (d.take guard name p).table guard' =
      if guard' = guard then (d.table guard).set name p else d.table guard' := by
  unfold take hold await
  rw [leave_eq, leave_eq]
  cases guard <;> cases guard' <;> rfl

theorem get?_take {guard' : Bool} :
    ((d.take guard name p).table guard').get? other =
      if guard' = guard ∧ other = name then some p
      else (d.table guard').get? other := by
  rw [table_take]
  by_cases hguard : guard' = guard
  · subst hguard
    simp [eq_comm]
  · simp [hguard]

def advance (d : LockDesk) (name : String) (p : Place) : LockDesk :=
  take { d with awaited := d.awaited.erase name } true name p

theorem get?_advance : ((d.advance name p).table guard).get? other =
    if other = name then (if guard then some p else none)
    else (d.table guard).get? other := by
  unfold advance
  rw [get?_take]
  cases guard with
  | true => simp [table]
  | false => simp [table, eq_comm]

theorem poll_of_none (h : d.awaited.get? name = none) : d.poll name = (false, d) := by
  unfold LockDesk.poll
  rw [h]

theorem poll_eq {got : Bool} (hget : d.awaited.get? name = some p)
    (hgot : d.locks.isHeldBy p.key p.who = got) :
    d.poll name = (got, if got then d.advance name p else d) := by
  unfold LockDesk.poll
  rw [hget]
  cases got with
  | true => exact if_pos hgot
  | false => exact if_neg (by simp [hgot])

/-! ## The numbered line -/

variable {line : List (Nat × Seat)}

def leaving (line : List (Nat × Seat)) (name : String) (guard : Bool) :
    List (Nat × Seat) :=
  line.filter fun x => !decide (x.2.name = name ∧ x.2.guard = guard)

theorem mem_leaving {x : Nat × Seat} :
    x ∈ leaving line name guard ↔
      x ∈ line ∧ ¬(x.2.name = name ∧ x.2.guard = guard) := by
  unfold leaving
  rw [List.mem_filter, Bool.not_eq_true', decide_eq_false_iff_not]

theorem seats_leaving :
    (leaving line name guard).map Prod.snd =
      Lineup.without (line.map Prod.snd) name guard := by
  unfold leaving Lineup.without
  rw [List.filter_map]
  rfl

def seated (name : String) (guard : Bool) (p : Place) : Nat × Seat :=
  (p.who, ⟨name, p.key, guard⟩)

theorem seated_inj {guard' : Bool} :
    seated other guard' q = seated name guard p ↔
      (guard' = guard ∧ other = name) ∧ p = q := by
  obtain ⟨key, who⟩ := p
  obtain ⟨key', who'⟩ := q
  simp only [seated, Prod.mk.injEq, Seat.mk.injEq, Place.mk.injEq]
  constructor
  · rintro ⟨rfl, rfl, rfl, rfl⟩
    exact ⟨⟨rfl, rfl⟩, rfl, rfl⟩
  · rintro ⟨⟨rfl, rfl⟩, rfl, rfl⟩
    exact ⟨rfl, rfl, rfl, rfl⟩

/-- The clients in line are those who have places at the desk, with the numbers of
their places. -/
structure Seated (d : LockDesk) (line : List (Nat × Seat)) : Prop where
  shared : d.locks.Shared
  asked : d.locks.asked = line.map fun x => (x.2.key, x.1)
  seats : ∀ guard {name p}, (d.table guard).get? name = some p ↔
    seated name guard p ∈ line
  sorted : line.Pairwise fun x y => x.1 < y.1
  below : ∀ x ∈ line, x.1 < d.places
  first : ∀ x ∈ line, ∀ y ∈ line, x.2.guard = true → y.2.key = x.2.key → x.1 ≤ y.1

theorem Seated.eq_of_number (h : Seated d line) {x y : Nat × Seat} (hx : x ∈ line)
    (hy : y ∈ line) (heq : x.1 = y.1) : x = y := by
  have hnodup : (line.map Prod.fst).Nodup :=
    (List.pairwise_map.mpr h.sorted).imp Nat.ne_of_lt
  exact List.inj_on_of_nodup_map hnodup hx hy heq

theorem Seated.eq_of_seat (h : Seated d line) {x y : Nat × Seat} (hx : x ∈ line)
    (hy : y ∈ line) (hname : x.2.name = y.2.name)
    (hguard : x.2.guard = y.2.guard) : x = y := by
  obtain ⟨n, name, key, guard⟩ := x
  obtain ⟨m, name', key', guard'⟩ := y
  obtain rfl : name = name' := hname
  obtain rfl : guard = guard' := hguard
  have hx' := h.seats _ (p := ⟨key, n⟩).mpr hx
  have hy' := h.seats _ (p := ⟨key', m⟩).mpr hy
  obtain ⟨rfl, rfl⟩ := Place.mk.inj (Option.some.inj (hx'.symm.trans hy'))
  rfl

theorem Seated.leaving_of_none (h : Seated d line)
    (hget : (d.table guard).get? name = none) :
    leaving line name guard = line := by
  apply List.filter_eq_self.mpr
  intro x hx
  have hnot : ¬(x.2.name = name ∧ x.2.guard = guard) := by
    rintro ⟨rfl, rfl⟩
    have hsome := (h.seats x.2.guard (p := ⟨x.2.key, x.1⟩)).mpr hx
    exact absurd (hget.symm.trans hsome) (by simp)
  simp [hnot]

theorem Seated.filter_asked (h : Seated d line)
    (hget : (d.table guard).get? name = some p) :
    (line.map fun x => (x.2.key, x.1)).filter (fun y => decide (y ≠ (p.key, p.who))) =
      (leaving line name guard).map fun x => (x.2.key, x.1) := by
  have hp := (h.seats guard).mp hget
  rw [List.filter_map]
  congr 1
  apply List.filter_congr
  intro x hx
  show decide ((x.2.key, x.1) ≠ (p.key, p.who)) = _
  apply Bool.eq_iff_iff.mpr
  rw [decide_eq_true_iff, Bool.not_eq_true', decide_eq_false_iff_not, not_iff_not]
  constructor
  · intro hsame
    obtain ⟨-, hnumber⟩ := Prod.mk.inj hsame
    rw [h.eq_of_number hx hp hnumber]
    exact ⟨rfl, rfl⟩
  · rintro ⟨hname, hguard⟩
    rw [h.eq_of_seat hx hp hname hguard]
    rfl

/-- Who gives up a place leaves the line, whoever has come to its end meanwhile. -/
theorem Seated.leave (h : Seated d line) (d' : LockDesk)
    (tail : List (ServiceKey × Nat)) (hshared : d'.locks.Shared)
    (hasked : d'.locks.asked = (line.map fun x => (x.2.key, x.1)) ++ tail)
    (htail : ∀ x ∈ tail, d.places ≤ x.2) (name : String) (guard : Bool) :
    (d'.leave ((d.table guard).get? name)).locks.Shared ∧
      (d'.leave ((d.table guard).get? name)).locks.asked =
        ((leaving line name guard).map fun x => (x.2.key, x.1)) ++ tail := by
  cases hget : (d.table guard).get? name with
  | none =>
      rw [h.leaving_of_none hget]
      exact ⟨hshared, hasked⟩
  | some p =>
      refine ⟨hshared.release p.key p.who, ?_⟩
      show (d'.locks.release p.key p.who).asked = _
      rw [KeyLocks.asked_release, hasked, List.filter_append, h.filter_asked hget]
      congr 1
      -- who has come meanwhile has a greater number
      apply List.filter_eq_self.mpr
      intro x hx
      have hlater := htail x hx
      have hbefore : p.who < d.places := h.below _ ((h.seats guard).mp hget)
      have hne : x ≠ (p.key, p.who) := by
        rintro rfl
        omega
      exact decide_eq_true hne

theorem Seated.idle_iff (h : Seated d line) :
    d.locks.Idle key ↔ Lineup.isFree (line.map Prod.snd) key = true := by
  unfold KeyLocks.Idle Lineup.isFree
  rw [h.asked, List.forall_mem_map, Bool.not_eq_true', List.any_eq_false,
    List.forall_mem_map]
  simp only [decide_eq_true_eq, ne_eq]

theorem Seated.isHeldBy_lock (h : Seated d line) (key : ServiceKey) :
    (d.locks.lock key d.places).isHeldBy key d.places =
      Lineup.isFree (line.map Prod.snd) key := by
  apply Bool.eq_iff_iff.mpr
  rw [(h.shared.lock key d.places).isHeldBy_iff, KeyLocks.asked_lock, List.find?_append,
    ← h.idle_iff]
  constructor
  · intro hfirst x hx hkey
    cases hfind : d.locks.asked.find? fun x => decide (x.1 = key) with
    | none => exact List.find?_eq_none.mp hfind x hx (by simpa using hkey)
    | some y =>
        -- whoever was first has a smaller number
        rw [hfind] at hfirst
        obtain rfl : y = (key, d.places) := Option.some.inj hfirst
        have hmem := List.mem_of_find?_eq_some hfind
        rw [h.asked] at hmem
        obtain ⟨z, hz, heq⟩ := List.mem_map.mp hmem
        obtain ⟨-, hnumber⟩ := Prod.mk.inj heq
        have hbelow := h.below z hz
        omega
  · intro hidle
    have hnone : d.locks.asked.find? (fun x => decide (x.1 = key)) = none :=
      List.find?_eq_none.mpr fun x hx => by simpa using hidle x hx
    rw [hnone]
    simp

/-! ## Steps -/

/-- **Who comes to a lock is last in line**, and has given up what it had. -/
theorem Seated.join (h : Seated d line) (name : String) (key : ServiceKey)
    (guard : Bool) (hfree : guard = true → d.locks.Idle key) :
    Seated
      (take { d with locks := d.locks.lock key d.places, places := d.places + 1 }
        guard name ⟨key, d.places⟩)
      (leaving line name guard ++ [(d.places, ⟨name, key, guard⟩)]) := by
  obtain ⟨hshared, hasked⟩ :=
    h.leave { d with locks := d.locks.lock key d.places, places := d.places + 1 }
      [(key, d.places)] (h.shared.lock key d.places)
      (by rw [KeyLocks.asked_lock, h.asked]) (by simp) name guard
  refine ⟨?_, ?_, ?_, ?_, ?_, ?_⟩
  · rw [locks_take]
    exact hshared
  · rw [locks_take, List.map_append]
    exact hasked
  · intro guard' other q
    rw [get?_take, List.mem_append, mem_leaving, List.mem_singleton]
    show (if guard' = guard ∧ other = name then _ else (d.table guard').get?
      other) = some q ↔
      seated other guard' q ∈ line ∧ ¬(other = name ∧ guard' = guard) ∨
        seated other guard' q = seated name guard ⟨key, d.places⟩
    rw [seated_inj, and_comm (a := other = name)]
    split
    · next hself => simp [hself]
    · next hself => simp [hself, h.seats]
  · refine List.pairwise_append.mpr ⟨h.sorted.filter _, List.pairwise_singleton _ _, ?_⟩
    intro x hx y hy
    rw [List.mem_singleton.mp hy]
    exact h.below x (mem_leaving.mp hx).1
  · intro x hx
    rw [places_take]
    show x.1 < d.places + 1
    rcases List.mem_append.mp hx with hx | hx
    · exact Nat.lt_succ_of_lt (h.below x (mem_leaving.mp hx).1)
    · rw [List.mem_singleton.mp hx]
      exact Nat.lt_succ_self _
  · intro x hx y hy hx' hkey
    rcases List.mem_append.mp hx with hx | hx
    · have hx := (mem_leaving.mp hx).1
      rcases List.mem_append.mp hy with hy | hy
      · exact h.first x hx y (mem_leaving.mp hy).1 hx' hkey
      · rw [List.mem_singleton.mp hy]
        exact Nat.le_of_lt (h.below x hx)
    · obtain rfl := List.mem_singleton.mp hx
      rcases List.mem_append.mp hy with hy | hy
      · -- the lock was free, so that nobody is before a new guard
        have hidle := hfree hx'
        have hy := (mem_leaving.mp hy).1
        refine absurd hkey (hidle (y.2.key, y.1) ?_)
        rw [h.asked]
        exact List.mem_map_of_mem hy
      · exact Nat.le_of_eq (congrArg Prod.fst (List.mem_singleton.mp hy)).symm

theorem lock_eq {got : Bool}
    (h : (d.locks.lock key d.places).isHeldBy key d.places = got) :
    d.lock name key =
      (got,
        take { d with locks := d.locks.lock key d.places, places := d.places + 1 }
          got name ⟨key, d.places⟩) := by
  unfold LockDesk.lock settle
  rw [if_congr (by rw [h]) rfl rfl]
  cases got <;> rfl

theorem Seated.lock (h : Seated d line) (name : String) (key : ServiceKey) :
    ∃ line', Seated (d.lock name key).2 line' ∧
      Lineup.serve (line.map Prod.snd) (.lock name key) =
        ((d.lock name key).1, line'.map Prod.snd) := by
  rw [lock_eq (h.isHeldBy_lock key)]
  refine ⟨_, h.join name key _ h.idle_iff.mpr, ?_⟩
  rw [List.map_append, seats_leaving]
  rfl

theorem Seated.skip (h : Seated d line) :
    Seated { d with places := d.places + 1 } line :=
  ⟨h.shared, h.asked, h.seats, h.sorted,
    fun x hx => Nat.lt_succ_of_lt (h.below x hx), h.first⟩

theorem tryLock_of_idle (h : d.locks.Shared) (hidle : d.locks.Idle key)
    (name : String) :
    d.tryLock name key =
      (true,
        take { d with locks := d.locks.lock key d.places, places := d.places + 1 }
          true name ⟨key, d.places⟩) := by
  unfold LockDesk.tryLock
  rw [KeyLocks.tryLock_of_idle h hidle]
  rfl

theorem tryLock_of_not_idle (h : d.locks.Shared) (hidle : ¬d.locks.Idle key)
    (name : String) :
    d.tryLock name key = (false, { d with places := d.places + 1 }) := by
  unfold LockDesk.tryLock
  rw [KeyLocks.tryLock_of_not_idle h hidle]
  rfl

theorem Seated.tryLock (h : Seated d line) (name : String) (key : ServiceKey) :
    ∃ line', Seated (d.tryLock name key).2 line' ∧
      Lineup.serve (line.map Prod.snd) (.tryLock name key) =
        ((d.tryLock name key).1, line'.map Prod.snd) := by
  cases hfree : Lineup.isFree (line.map Prod.snd) key with
  | true =>
      have hidle := h.idle_iff.mpr hfree
      rw [tryLock_of_idle h.shared hidle]
      refine ⟨_, h.join name key true fun _ => hidle, ?_⟩
      rw [List.map_append, seats_leaving]
      simp only [Lineup.serve, hfree, if_true]
      rfl
  | false =>
      have hidle : ¬d.locks.Idle key := fun hidle =>
        absurd ((h.idle_iff.mp hidle).symm.trans hfree) (by decide)
      rw [tryLock_of_not_idle h.shared hidle]
      refine ⟨line, h.skip, ?_⟩
      simp only [Lineup.serve, hfree]
      rfl

/-- A client is found first in the numbered line and in what is known of it. -/
theorem find?_map_eq {α : Type} {f : Nat × Seat → α} {test : α → Bool}
    {x : Nat × Seat} (hf : ∀ y ∈ line, f y = f x → y = x) :
    (line.map f).find? test = some (f x) ↔ line.find? (test ∘ f) = some x := by
  rw [List.find?_map]
  constructor
  · intro h
    obtain ⟨y, hfind, heq⟩ := Option.map_eq_some_iff.mp h
    rw [hfind, hf y (List.mem_of_find?_eq_some hfind) heq]
  · intro h
    rw [h]
    rfl

/-- The first in line for a lock has the smallest number of all who are at
the lock. -/
theorem Seated.le_of_find? (h : Seated d line) {x y : Nat × Seat}
    {test : Nat × Seat → Bool} (hfind : line.find? test = some x) (hy : y ∈ line)
    (htest : test y = true) : x.1 ≤ y.1 := by
  obtain ⟨-, before, rest, rfl, hbefore⟩ := List.find?_eq_some_iff_append.mp hfind
  rcases List.mem_append.mp hy with hy | hy
  · exact absurd htest (by simpa using hbefore y hy)
  · rcases List.mem_cons.mp hy with rfl | hy
    · exact Nat.le_refl _
    · have hrest := (List.pairwise_append.mp h.sorted).2.1
      exact Nat.le_of_lt ((List.pairwise_cons.mp hrest).1 y hy)

theorem Seated.isHeldBy_iff (h : Seated d line) {n : Nat} {s : Seat}
    (hs : (n, s) ∈ line) :
    d.locks.isHeldBy s.key n = true ↔
      line.find? (fun x => decide (x.2.key = s.key)) = some (n, s) := by
  rw [h.shared.isHeldBy_iff, h.asked]
  refine find?_map_eq (f := fun x => (x.2.key, x.1)) (x := (n, s)) fun y hy heq => ?_
  exact h.eq_of_number hy hs (Prod.mk.inj heq).2

theorem Seated.first?_iff (h : Seated d line) {n : Nat} {s : Seat}
    (hs : (n, s) ∈ line) :
    Lineup.first? (line.map Prod.snd) s.key = some s ↔
      line.find? (fun x => decide (x.2.key = s.key)) = some (n, s) := by
  refine find?_map_eq (f := Prod.snd) (x := (n, s)) fun y hy heq => ?_
  have heq : y.2 = s := heq
  exact h.eq_of_seat hy hs (by rw [heq]) (by rw [heq])

theorem Seated.waiting?_eq (h : Seated d line) (name : String) :
    Lineup.waiting? (line.map Prod.snd) name =
      (d.awaited.get? name).map fun p => ⟨name, p.key, false⟩ := by
  cases hget : d.awaited.get? name with
  | none =>
      apply List.find?_eq_none.mpr
      intro s hs hself
      obtain ⟨x, hx, rfl⟩ := List.mem_map.mp hs
      obtain ⟨rfl, hguard⟩ := of_decide_eq_true hself
      have hsome : (d.table false).get? x.2.name = some ⟨x.2.key, x.1⟩ :=
        (h.seats _).mpr (by rw [← hguard]; exact hx)
      exact absurd (hget.symm.trans hsome) (by simp)
  | some p =>
      have hp : seated name false p ∈ line := (h.seats false).mp hget
      refine (find?_map_eq (f := Prod.snd) (x := (p.who, ⟨name, p.key, false⟩)) ?_).mpr ?_
      · intro y hy heq
        have heq : y.2 = ⟨name, p.key, false⟩ := heq
        exact h.eq_of_seat hy hp (by rw [heq]) (by rw [heq])
      · cases hfind : line.find? _ with
        | none => exact absurd (List.find?_eq_none.mp hfind _ hp) (by simp [seated])
        | some x =>
            have hself := List.find?_some hfind
            obtain ⟨hname, hguard⟩ : x.2.name = name ∧ x.2.guard = false := by
              simpa using hself
            rw [h.eq_of_seat (List.mem_of_find?_eq_some hfind) hp hname hguard]
            rfl

def promoted (line : List (Nat × Seat)) (name : String) : List (Nat × Seat) :=
  (leaving line name true).map fun x =>
    (x.1, if x.2.name = name then { x.2 with guard := true } else x.2)

theorem seats_promoted :
    (promoted line name).map Prod.snd = Lineup.promote (line.map Prod.snd) name := by
  unfold promoted Lineup.promote
  rw [← seats_leaving, List.map_map, List.map_map]
  rfl

theorem Seated.mem_promoted (h : Seated d line) (hget : d.awaited.get? name = some p)
    {x : Nat × Seat} : x ∈ promoted line name ↔
      (x ∈ line ∧ x.2.name ≠ name) ∨ x = seated name true p := by
  have hp : seated name false p ∈ line := (h.seats false).mp hget
  unfold promoted
  rw [List.mem_map]
  constructor
  · rintro ⟨y, hy, rfl⟩
    obtain ⟨hy, hnot⟩ := mem_leaving.mp hy
    by_cases hname : y.2.name = name
    · have hguard : y.2.guard = false := Bool.eq_false_iff.mpr fun htrue =>
        hnot ⟨hname, htrue⟩
      obtain rfl := h.eq_of_seat hy hp hname hguard
      exact Or.inr (by simp [seated])
    · exact Or.inl (by simp [hname, hy])
  · rintro (⟨hx, hname⟩ | rfl)
    · exact ⟨x, mem_leaving.mpr ⟨hx, fun hself => hname hself.1⟩, by simp [hname]⟩
    · exact ⟨_, mem_leaving.mpr ⟨hp, by simp [seated]⟩, by simp [seated]⟩

theorem asked_promoted : ((promoted line name).map fun x => (x.2.key, x.1)) =
    (leaving line name true).map fun x => (x.2.key, x.1) := by
  unfold promoted
  rw [List.map_map]
  apply List.map_congr_left
  intro x hx
  show ((if x.2.name = name then { x.2 with guard := true } else x.2 : Seat).key, x.1) = _
  split <;> rfl

/-- **Who is first in line and waits has the lock when it asks.** -/
theorem Seated.promote (h : Seated d line) (hget : d.awaited.get? name = some p)
    (hfirst : d.locks.isHeldBy p.key p.who = true) :
    Seated (d.advance name p) (promoted line name) := by
  have hp : seated name false p ∈ line := (h.seats false).mp hget
  have hfind := (h.isHeldBy_iff hp).mp hfirst
  obtain ⟨hshared, hasked⟩ := h.leave { d with awaited := d.awaited.erase name } []
    h.shared (by rw [h.asked, List.append_nil]) (by simp) name true
  refine ⟨hshared, ?_, ?_, ?_, ?_, ?_⟩
  · rw [asked_promoted, ← List.append_nil (List.map _ _)]
    exact hasked
  · intro guard other q
    rw [h.mem_promoted hget, get?_advance, seated_inj]
    show _ ↔ seated other guard q ∈ line ∧ other ≠ name ∨ _
    by_cases hname : other = name
    · cases guard <;> simp [hname]
    · simp [hname, h.seats]
  · exact List.pairwise_map.mpr (h.sorted.filter _)
  · intro x hx
    obtain ⟨y, hy, rfl⟩ := List.mem_map.mp hx
    show y.1 < (take _ true name p).places
    rw [places_take]
    exact h.below y (mem_leaving.mp hy).1
  · intro x hx y hy hguard hkey
    rcases (h.mem_promoted hget).mp hx with ⟨hx, -⟩ | rfl
    · rcases (h.mem_promoted hget).mp hy with ⟨hy, -⟩ | rfl
      · exact h.first x hx y hy hguard hkey
      · have hle : x.1 ≤ p.who := h.first x hx _ hp hguard hkey
        exact hle
    · rcases (h.mem_promoted hget).mp hy with ⟨hy, -⟩ | rfl
      · have hle : p.who ≤ y.1 := h.le_of_find? hfind hy (decide_eq_true hkey)
        exact hle
      · exact Nat.le_refl _

theorem Seated.isNext_eq (h : Seated d line) (name : String) :
    Lineup.isNext (line.map Prod.snd) name =
      (d.awaited.get? name).any fun p => d.locks.isHeldBy p.key p.who := by
  unfold Lineup.isNext
  rw [h.waiting?_eq name]
  cases hget : d.awaited.get? name with
  | none => rfl
  | some p =>
      have hp : seated name false p ∈ line := (h.seats false).mp hget
      apply Bool.eq_iff_iff.mpr
      show (_ == _) = true ↔ d.locks.isHeldBy p.key p.who = true
      rw [h.isHeldBy_iff (s := ⟨name, p.key, false⟩) hp, ← h.first?_iff hp]
      exact beq_iff_eq

theorem Seated.poll (h : Seated d line) (name : String) :
    ∃ line', Seated (d.poll name).2 line' ∧
      Lineup.serve (line.map Prod.snd) (.poll name) =
        ((d.poll name).1, line'.map Prod.snd) := by
  have hnext := h.isNext_eq name
  cases hget : d.awaited.get? name with
  | none =>
      rw [hget] at hnext
      rw [poll_of_none hget]
      refine ⟨line, h, ?_⟩
      simp only [Lineup.serve, hnext]
      rfl
  | some p =>
      rw [hget] at hnext
      cases hfirst : d.locks.isHeldBy p.key p.who with
      | true =>
          rw [poll_eq hget hfirst]
          refine ⟨promoted line name, h.promote hget hfirst, ?_⟩
          simp [Lineup.serve, hnext, hfirst, seats_promoted]
      | false =>
          rw [poll_eq hget hfirst]
          refine ⟨line, h, ?_⟩
          simp [Lineup.serve, hnext, hfirst]

def vacate (d : LockDesk) (guard : Bool) (name : String) : LockDesk :=
  if guard then { d.leave (d.held.get? name) with held := d.held.erase name }
  else { d.leave (d.awaited.get? name) with awaited := d.awaited.erase name }

theorem table_vacate {guard' : Bool} :
    (d.vacate guard name).table guard' =
      if guard' = guard then (d.table guard).erase name else d.table guard' := by
  unfold vacate
  rw [leave_eq, leave_eq]
  cases guard <;> cases guard' <;> rfl

theorem release_eq (d : LockDesk) (name : String) :
    (d.release name).2 = (d.vacate true name).vacate false name := by
  unfold release vacate
  simp only [leave_eq]
  rfl

theorem Seated.vacate (h : Seated d line) (guard : Bool) (name : String) :
    Seated (d.vacate guard name) (leaving line name guard) := by
  obtain ⟨hshared, hasked⟩ := h.leave d [] h.shared
    (by rw [h.asked, List.append_nil]) (by simp) name guard
  rw [List.append_nil] at hasked
  have hlocks : (d.vacate guard name).locks =
      (d.leave ((d.table guard).get? name)).locks := by
    cases guard <;> rfl
  refine ⟨hlocks ▸ hshared, hlocks ▸ hasked, ?_, h.sorted.filter _, ?_, ?_⟩
  · intro guard' other q
    have hget : ((d.vacate guard name).table guard').get? other =
        if guard' = guard ∧ other = name then none else (d.table guard').get? other := by
      rw [table_vacate]
      by_cases hguard : guard' = guard
      · simp [hguard, eq_comm]
      · simp [hguard]
    rw [hget, mem_leaving]
    show _ ↔ _ ∧ ¬(other = name ∧ guard' = guard)
    by_cases hself : guard' = guard ∧ other = name
    · simp [hself]
    · rw [if_neg hself, h.seats, and_comm (a := other = name)]
      simp [hself]
  · intro x hx
    have hplaces : (d.vacate guard name).places = d.places := by
      cases guard
      · exact places_leave _
      · exact places_leave _
    rw [hplaces]
    exact h.below x (mem_leaving.mp hx).1
  · intro x hx y hy
    exact h.first x (mem_leaving.mp hx).1 y (mem_leaving.mp hy).1

theorem Seated.release (h : Seated d line) (name : String) :
    ∃ line', Seated (d.release name).2 line' ∧
      Lineup.serve (line.map Prod.snd) (.release name) =
        ((d.release name).1, line'.map Prod.snd) := by
  rw [release_eq]
  refine ⟨_, (h.vacate true name).vacate false name, Prod.ext ?_ ?_⟩
  · show (line.map Prod.snd).any (fun s => decide (s.name = name)) =
      ((d.held.get? name).isSome || (d.awaited.get? name).isSome)
    apply Bool.eq_iff_iff.mpr
    rw [Bool.or_eq_true, Option.isSome_iff_exists, Option.isSome_iff_exists,
      List.any_eq_true]
    constructor
    · rintro ⟨s, hs, hname⟩
      obtain ⟨x, hx, rfl⟩ := List.mem_map.mp hs
      obtain rfl := of_decide_eq_true hname
      have hget := (h.seats x.2.guard (p := ⟨x.2.key, x.1⟩)).mpr hx
      cases hguard : x.2.guard with
      | true => exact Or.inl ⟨_, by rw [hguard] at hget; exact hget⟩
      | false => exact Or.inr ⟨_, by rw [hguard] at hget; exact hget⟩
    · rintro (⟨p, hget⟩ | ⟨p, hget⟩)
      · have hp := (h.seats true).mp hget
        exact ⟨_, List.mem_map_of_mem hp, by simp [seated]⟩
      · have hp := (h.seats false).mp hget
        exact ⟨_, List.mem_map_of_mem hp, by simp [seated]⟩
  · show (line.map Prod.snd).filter (fun s => !decide (s.name = name)) = _
    rw [seats_leaving, seats_leaving]
    unfold Lineup.without
    rw [List.filter_filter]
    apply List.filter_congr
    intro s hs
    cases s.guard <;> simp

theorem Seated.prune (h : Seated d line) : Seated d.prune.2 line :=
  ⟨h.shared.prune, h.asked, h.seats, h.sorted, h.below, h.first⟩

theorem seated_empty : Seated empty [] := by
  refine ⟨KeyLocks.shared_empty, rfl, ?_, List.Pairwise.nil, ?_, ?_⟩
  · intro guard name p
    cases guard <;> simp [table, empty]
  · intro x hx
    exact absurd hx (by simp)
  · intro x hx
    exact absurd hx (by simp)

/-- **A desk serves a client as the line does.** -/
theorem Seated.serve (h : Seated d line) (a : Ask) :
    ∃ line', Seated (d.serve a).2 line' ∧
      Lineup.serve (line.map Prod.snd) a = ((d.serve a).1, line'.map Prod.snd) := by
  cases a with
  | lock name key => exact h.lock name key
  | tryLock name key => exact h.tryLock name key
  | poll name => exact h.poll name
  | release name => exact h.release name

/-! ## Runs of a desk -/

theorem Seated.after (h : Seated d line) (steps : List Step) :
    ∃ line', Seated (d.after steps) line' := by
  induction steps generalizing d line with
  | nil => exact ⟨line, h⟩
  | cons step steps ih =>
      cases step with
      | ask a =>
          obtain ⟨line', h', -⟩ := h.serve a
          exact ih h'
      | prune => exact ih h.prune

/-- **A desk replies as the line does**, whenever slots are dropped. -/
theorem Seated.replies_eq (h : Seated d line) (steps : List Step) :
    d.replies steps = Lineup.replies (line.map Prod.snd) (asks steps) := by
  induction steps generalizing d line with
  | nil => rfl
  | cons step steps ih =>
      cases step with
      | ask a =>
          obtain ⟨line', h', hserve⟩ := h.serve a
          simp only [replies, asks, Lineup.replies, hserve, ih h']
      | prune => exact ih h.prune

end PortForwarding.Simulation.LockDesk
