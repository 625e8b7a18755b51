import PortForwarding.Text.Decimal

/-! # Network addresses

An address of either version of the internet protocol, and its canonical text: a
dotted quad, or groups of hexadecimal digits in which the longest run of zero
groups (the first of equals, and never a single group) is left out. A version 6
address that carries a version 4 one ends in a dotted quad.
-/

namespace PortForwarding

/-- An address of a host. -/
inductive Address where
  | v4 (a b c d : UInt8)
  | v6 (groups : Vector UInt16 8)
  deriving DecidableEq, Repr

namespace Address

instance : Inhabited Address := ⟨.v4 0 0 0 0⟩

/-! ## The canonical text -/

def quadText (a b c d : UInt8) : String :=
  Text.showNat a.toNat ++ "." ++ Text.showNat b.toNat ++ "." ++
    Text.showNat c.toNat ++ "." ++ Text.showNat d.toNat

/-- A group in hexadecimal, without leading zeros. -/
def groupText (g : UInt16) : String :=
  String.ofList (Nat.toDigits 16 g.toNat)

def groupsText (gs : List UInt16) : String :=
  String.intercalate ":" (gs.map groupText)

def leadingZeros (gs : List UInt16) : Nat :=
  (gs.takeWhile (· == 0)).length

/-- The first longest run of zero groups, as its start and its length. -/
def longestZeros : List UInt16 → Nat × Nat
  | [] => (0, 0)
  | g :: gs =>
    let here := leadingZeros (g :: gs)
    let (start, length) := longestZeros gs
    if length > here then (start + 1, length) else (0, here)

/-- The eight groups of a version 6 address, the longest run of zeros left out. -/
def compressedText (gs : List UInt16) : String :=
  let (start, length) := longestZeros gs
  if length > 1 then
    groupsText (gs.take start) ++ "::" ++ groupsText (gs.drop (start + length))
  else groupsText gs

/-- The canonical text of an address. -/
def text : Address → String
  | .v4 a b c d => quadText a b c d
  | .v6 gs =>
    match gs.toList with
    | [0, 0, 0, 0, 0, 0xffff, g, h] =>
      "::ffff:" ++ quadText (g >>> 8).toUInt8 g.toUInt8 (h >>> 8).toUInt8 h.toUInt8
    | gs => compressedText gs

end Address

end PortForwarding
