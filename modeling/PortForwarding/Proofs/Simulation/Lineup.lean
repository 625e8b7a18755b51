import Mathlib.Data.List.Basic
import PortForwarding.Simulation.LockDesk

/-!
# Fair locks as a line of clients

`Lineup` is the locks of a desk and nothing else: the clients who hold or await
them, in the order in which they came, without places, mutexes, or slots that
could be dropped. The lock of a key belongs to the first client in line who came
for it.

Clients who come for other locks may as well not be in line:
`Lineup.replies_filter` takes them out of a whole run.
-/

namespace PortForwarding.Simulation

/-! ## What clients ask for -/

/-- What a client asks of a desk. -/
inductive Ask where
  | lock (name : String) (key : ServiceKey)
  | tryLock (name : String) (key : ServiceKey)
  | poll (name : String)
  | release (name : String)
  deriving DecidableEq, Repr

namespace Ask

def name : Ask → String
  | .lock name _ | .tryLock name _ | .poll name | .release name => name

/-- The lock that the client comes for, if it comes for a new one. -/
def key? : Ask → Option ServiceKey
  | .lock _ key | .tryLock _ key => some key
  | .poll _ | .release _ => none

end Ask

/-! ## The line -/

/-- A client at a lock: as its guard, or waiting for it. -/
structure Seat where
  name : String
  key : ServiceKey
  guard : Bool
  deriving DecidableEq, Repr

abbrev Lineup := List Seat

namespace Lineup

def isFree (line : Lineup) (key : ServiceKey) : Bool :=
  !line.any fun s => decide (s.key = key)

def first? (line : Lineup) (key : ServiceKey) : Option Seat :=
  line.find? fun s => decide (s.key = key)

def waiting? (line : Lineup) (name : String) : Option Seat :=
  line.find? fun s => decide (s.name = name ∧ s.guard = false)

/-- A client gives up the lock that it holds, or the one that it waits for. -/
def without (line : Lineup) (name : String) (guard : Bool) : Lineup :=
  line.filter fun s => !decide (s.name = name ∧ s.guard = guard)

/-- A client comes to the end of the line, and gives up what it had before. -/
def join (line : Lineup) (name : String) (key : ServiceKey) (guard : Bool) : Lineup :=
  line.without name guard ++ [⟨name, key, guard⟩]

/-- A client that waited becomes a guard, and gives up the lock that it
held before. -/
def promote (line : Lineup) (name : String) : Lineup :=
  (line.without name true).map fun s =>
    if s.name = name then { s with guard := true } else s

/-- Whether a client waits for a lock and is first in line for it. -/
def isNext (line : Lineup) (name : String) : Bool :=
  match line.waiting? name with
  | some s => line.first? s.key == some s
  | none => false

def serve (line : Lineup) : Ask → Bool × Lineup
  | .lock name key => (line.isFree key, line.join name key (line.isFree key))
  | .tryLock name key =>
    (line.isFree key, if line.isFree key then line.join name key true else line)
  | .poll name => (line.isNext name, if line.isNext name then line.promote name else line)
  | .release name =>
    (line.any fun s => decide (s.name = name), line.filter fun s =>
      !decide (s.name = name))

def replies : Lineup → List Ask → List (Ask × Bool)
  | _, [] => []
  | line, a :: asks => (a, (line.serve a).1) :: replies (line.serve a).2 asks

/-! ## Clients apart -/

variable {keep : String → Bool} {mine : ServiceKey → Bool} {line : Lineup}
  {name : String} {key : ServiceKey}

/-- The clients that are kept, and only they, are at the locks that are theirs. -/
def Apart (keep : String → Bool) (mine : ServiceKey → Bool) (line : Lineup) : Prop :=
  ∀ s ∈ line, keep s.name = mine s.key

def kept (keep : String → Bool) (line : Lineup) : Lineup :=
  line.filter fun s => keep s.name

theorem mem_of_mem_without {s : Seat} {guard : Bool}
    (h : s ∈ line.without name guard) : s ∈ line :=
  (List.mem_filter.mp h).1

/-- **Whatever a client is served, clients stay apart** if it comes for what is
its own. -/
theorem Apart.serve {a : Ask} (h : Apart keep mine line)
    (ha : ∀ key ∈ a.key?, keep a.name = mine key) :
    Apart keep mine (line.serve a).2 := by
  have hjoin : ∀ name key guard, keep name = mine key →
      Apart keep mine (line.join name key guard) := by
    intro name key guard hown s hs
    rcases List.mem_append.mp hs with hs | hs
    · exact h s (mem_of_mem_without hs)
    · rw [List.mem_singleton.mp hs]
      exact hown
  cases a with
  | lock name key => exact hjoin name key _ (ha key rfl)
  | tryLock name key =>
      show Apart keep mine (if line.isFree key then line.join name key true else line)
      split
      · exact hjoin name key true (ha key rfl)
      · exact h
  | poll name =>
      show Apart keep mine (if line.isNext name then line.promote name else line)
      split
      · intro s hs
        obtain ⟨t, ht, rfl⟩ := List.mem_map.mp hs
        have hown := h t (mem_of_mem_without ht)
        split <;> exact hown
      · exact h
  | release name => exact fun s hs => h s (List.mem_filter.mp hs).1

theorem kept_without (line : Lineup) (name : String) (guard : Bool) :
    kept keep (line.without name guard) = (kept keep line).without name guard := by
  unfold kept without
  rw [List.filter_filter, List.filter_filter]
  apply List.filter_congr
  intro s hs
  exact Bool.and_comm _ _

theorem kept_join_of_mine (hname : keep name = true) (guard : Bool) :
    kept keep (line.join name key guard) = (kept keep line).join name key guard := by
  unfold join
  rw [← kept_without]
  simp [kept, hname]

/-- What a client does that is not kept makes no difference to those that are. -/
theorem kept_without_of_other (hname : keep name = false) (guard : Bool) :
    kept keep (line.without name guard) = kept keep line := by
  unfold kept without
  rw [List.filter_filter]
  apply List.filter_congr
  intro s hs
  by_cases hs : s.name = name
  · simp [hs, hname]
  · simp [hs]

theorem kept_join_of_other (hname : keep name = false) (guard : Bool) :
    kept keep (line.join name key guard) = kept keep line := by
  have hleft : kept keep (line.without name guard) = kept keep line :=
    kept_without_of_other hname guard
  rw [← hleft]
  simp [join, kept, hname]

theorem find?_kept {p : Seat → Bool}
    (hp : ∀ s ∈ line, p s = true → keep s.name = true) :
    (kept keep line).find? p = line.find? p := by
  unfold kept
  rw [List.find?_filter]
  induction line with
  | nil => rfl
  | cons s line ih =>
      have ih := ih fun t ht => hp t (List.mem_cons_of_mem s ht)
      cases hs : p s with
      | true => simp [hs, hp s List.mem_cons_self hs]
      | false => simpa [hs] using ih

theorem any_kept {p : Seat → Bool}
    (hp : ∀ s ∈ line, p s = true → keep s.name = true) :
    (kept keep line).any p = line.any p := by
  unfold kept
  rw [List.any_filter]
  apply Bool.eq_iff_iff.mpr
  simp only [List.any_eq_true, Bool.and_eq_true]
  constructor
  · rintro ⟨s, hs, -, hself⟩
    exact ⟨s, hs, hself⟩
  · rintro ⟨s, hs, hself⟩
    exact ⟨s, hs, hp s hs hself, hself⟩

theorem isFree_kept (h : Apart keep mine line) (hkey : mine key = true) :
    isFree (kept keep line) key = line.isFree key := by
  unfold isFree
  rw [any_kept]
  intro s hs hself
  rw [h s hs, of_decide_eq_true hself, hkey]

theorem waiting?_eq_some {s : Seat} (h : line.waiting? name = some s) :
    s ∈ line ∧ s.name = name ∧ s.guard = false :=
  ⟨List.mem_of_find?_eq_some h, by simpa using List.find?_some h⟩

theorem kept_promote (line : Lineup) (name : String) :
    kept keep (line.promote name) = (kept keep line).promote name := by
  unfold promote
  rw [← kept_without]
  unfold kept
  rw [List.filter_map]
  congr 1
  apply List.filter_congr
  intro s hs
  by_cases hs : s.name = name
  · simp [hs]
  · simp [hs]

theorem kept_promote_of_other (hname : keep name = false) :
    kept keep (line.promote name) = kept keep line := by
  have hnone : ∀ s ∈ kept keep line, s.name ≠ name := by
    rintro s hs rfl
    exact absurd ((List.mem_filter.mp hs).2.symm.trans hname) (by decide)
  have hleft : (kept keep line).without name true = kept keep line :=
    List.filter_eq_self.mpr fun s hs => by simp [hnone s hs]
  rw [kept_promote]
  unfold promote
  rw [hleft]
  refine (List.map_congr_left fun s hs => ?_).trans (List.map_id _)
  exact if_neg (hnone s hs)

theorem isNext_kept (h : Apart keep mine line) (hname : keep name = true) :
    isNext (kept keep line) name = line.isNext name := by
  have hwaiting : (kept keep line).waiting? name = line.waiting? name := by
    apply find?_kept
    intro s hs hself
    obtain ⟨rfl, -⟩ := of_decide_eq_true hself
    exact hname
  unfold isNext
  rw [hwaiting]
  split
  · next s hfind =>
      obtain ⟨hs, rfl, -⟩ := waiting?_eq_some hfind
      have hown : mine s.key = true := (h s hs).symm.trans hname
      have hfirst : (kept keep line).first? s.key = line.first? s.key := by
        apply find?_kept
        intro t ht hkey
        rw [h t ht, of_decide_eq_true hkey, hown]
      rw [hfirst]
  · rfl

/-- **A client that is kept is served as if only those that are kept were
in line.** -/
theorem serve_kept {a : Ask} (h : Apart keep mine line) (hname : keep a.name = true)
    (ha : ∀ key ∈ a.key?, keep a.name = mine key) :
    serve (kept keep line) a = ((line.serve a).1, kept keep (line.serve a).2) := by
  cases a with
  | lock name key =>
      have hname : keep name = true := hname
      have hfree := isFree_kept h ((ha key rfl).symm.trans hname)
      simp only [serve, hfree, kept_join_of_mine hname]
  | tryLock name key =>
      have hname : keep name = true := hname
      have hfree := isFree_kept h ((ha key rfl).symm.trans hname)
      simp only [serve, hfree]
      split
      · rw [kept_join_of_mine hname]
      · rfl
  | poll name =>
      have hname : keep name = true := hname
      have hnext := isNext_kept h hname
      simp only [serve, hnext]
      split
      · rw [kept_promote]
      · rfl
  | release name =>
      have hname : keep name = true := hname
      have hany : (kept keep line).any (fun s => decide (s.name = name)) =
          line.any fun s => decide (s.name = name) := by
        apply any_kept
        intro s hs hself
        rw [of_decide_eq_true hself, hname]
      simp only [serve, hany]
      unfold kept
      rw [List.filter_filter, List.filter_filter]
      congr 1
      apply List.filter_congr
      intro s hs
      exact Bool.and_comm _ _

/-- A client that is not kept leaves those that are as they are in line. -/
theorem kept_serve_of_other (line : Lineup) {a : Ask} (hname : keep a.name = false) :
    kept keep (line.serve a).2 = kept keep line := by
  cases a with
  | lock name key => exact kept_join_of_other hname _
  | tryLock name key =>
      show kept keep (if line.isFree key then line.join name key true else line) = _
      split
      · exact kept_join_of_other hname true
      · rfl
  | poll name =>
      show kept keep (if line.isNext name then line.promote name else line) = _
      split
      · exact kept_promote_of_other hname
      · rfl
  | release name =>
      have hname : keep name = false := hname
      unfold kept serve
      rw [List.filter_filter]
      apply List.filter_congr
      intro s hs
      by_cases hs : s.name = name
      · simp [hs, hname]
      · simp [hs]

/-- **Clients who come for other locks make no difference to a run.** -/
theorem replies_filter {asks : List Ask} (h : Apart keep mine line)
    (hasks : ∀ a ∈ asks, ∀ key ∈ a.key?, keep a.name = mine key) :
    (line.replies asks).filter (fun x => keep x.1.name) =
      replies (kept keep line) (asks.filter fun a => keep a.name) := by
  induction asks generalizing line with
  | nil => rfl
  | cons a asks ih =>
      have ha := hasks a List.mem_cons_self
      have ih := ih (h.serve ha) fun b hb => hasks b (List.mem_cons_of_mem a hb)
      cases hname : keep a.name with
      | true =>
          have hserve := serve_kept h hname ha
          simp [replies, hname, ih, hserve]
      | false =>
          have hline := kept_serve_of_other line hname
          simp [replies, hname, ih, hline]

end Lineup

end PortForwarding.Simulation
