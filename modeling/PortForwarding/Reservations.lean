import PortForwarding.Rule

/-! # Reserved external ports

One port of the router serves one Service. Before a Service's rules are written,
their external ports are reserved for it, all of them or none; the reservations
are shared by everything that writes rules.

The two views are `holder?`, who has a port, and `portsOf`, what a Service has.
-/

namespace PortForwarding

/-- The reserved ports with their holders. -/
structure Reservations where
  entries : List (UInt16 × ServiceKey)
  /-- A port has at most one holder. -/
  ports_nodup : (entries.map Prod.fst).Nodup
  deriving DecidableEq, Repr

/-- A port that is wanted by one Service and held by another. -/
structure PortConflict where
  port : UInt16
  holder : ServiceKey
  deriving DecidableEq, Repr

namespace Reservations

def empty : Reservations := ⟨[], by simp⟩

instance : Inhabited Reservations := ⟨empty⟩

/-- The Service that holds a port. -/
def holder? (r : Reservations) (port : UInt16) : Option ServiceKey :=
  r.entries.lookup port

/-- The ports that a Service holds, in order. -/
def portsOf (r : Reservations) (key : ServiceKey) : List UInt16 :=
  ((r.entries.filter fun e => decide (e.2 = key)).map Prod.fst).mergeSort

/-- The lowest of the ports that another Service holds, with its holder. -/
def conflict? (r : Reservations) (key : ServiceKey) (ports : List UInt16) :
    Option PortConflict :=
  ports.mergeSort.findSome? fun port =>
    match r.holder? port with
    | some holder => if holder = key then none else some ⟨port, holder⟩
    | none => none

/-- A port without a holder has no entry. -/
theorem notMem_ports_of_holder? {r : Reservations} {port : UInt16}
    (h : r.holder? port = none) : port ∉ r.entries.map Prod.fst := by
  intro hmem
  obtain ⟨e, he, rfl⟩ := List.mem_map.mp hmem
  have hne := List.lookup_eq_none_iff.mp h e he
  simp at hne

/-- The reservations with one port reserved, which nobody else holds. -/
def reserve (key : ServiceKey) (r : Reservations) (port : UInt16) : Reservations :=
  match h : r.holder? port with
  | some _ => r
  | none =>
    { entries := r.entries ++ [(port, key)]
      ports_nodup := by
        rw [List.map_append, List.nodup_append]
        refine ⟨r.ports_nodup, by simp, ?_⟩
        intro p hp q hq
        have hq : q = port := by simpa using hq
        rintro rfl
        exact notMem_ports_of_holder? h (hq ▸ hp) }

def only (r : Reservations) (test : UInt16 × ServiceKey → Bool) : Reservations :=
  ⟨r.entries.filter test, r.ports_nodup.sublist (List.filter_sublist.map Prod.fst)⟩

/-- All of the ports reserved for the Service, or the conflict that prevents it. -/
def claim (r : Reservations) (key : ServiceKey) (ports : List UInt16) :
    Except PortConflict Reservations :=
  match r.conflict? key ports with
  | some c => .error c
  | none => .ok (ports.foldl (reserve key) r)

/-- The Service holds none but the ports in `keep` any more. -/
def retain (r : Reservations) (key : ServiceKey) (keep : List UInt16) :
    Reservations :=
  r.only fun e => decide (e.2 ≠ key) || keep.contains e.1

/-- One port is given back, if the Service holds it. -/
def release (r : Reservations) (key : ServiceKey) (port : UInt16) : Reservations :=
  r.only fun e => !(decide (e.2 = key) && decide (e.1 = port))

/-- All ports of the Service are given back. -/
def releaseAll (r : Reservations) (key : ServiceKey) : Reservations :=
  r.retain key []

def size (r : Reservations) : Nat :=
  r.entries.length

end Reservations

end PortForwarding
