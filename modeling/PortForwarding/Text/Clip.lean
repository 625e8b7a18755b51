/-! # Clipping text to a number of bytes

A text that is too long is cut at a place where a character starts, the last one
from which what comes before fits into a given number of bytes. The place is
looked for backwards from that number, byte by byte. Two things could go wrong on
the way, and each is an outcome of its own: the search could leave the text at its
front, and a cut could divide a character.
-/

namespace PortForwarding.Text

/-- Whether a character starts at byte `n`, or the text ends there. -/
def isBoundary (s : String) (n : Nat) : Bool :=
  String.Pos.Raw.isValid s ⟨n⟩

/-- The first boundary on the way back from byte `n`; none if there is none down
to byte 0. -/
def boundaryBack? (s : String) : Nat → Option Nat
  | 0 => if isBoundary s 0 then some 0 else none
  | n + 1 => if isBoundary s (n + 1) then some (n + 1) else boundaryBack? s n

/-- The text before byte `n`; none if that would divide a character. -/
def before? (s : String) (n : Nat) : Option String :=
  if h : isBoundary s n = true then
    some (s.sliceTo ⟨⟨n⟩, String.Pos.Raw.isValid_eq_true_iff.mp h⟩).copy
  else none

/-- As much of the text as fits into `room` bytes. -/
def clip? (room : Nat) (s : String) : Option String :=
  if s.utf8ByteSize ≤ room then some s
  else (boundaryBack? s room).bind (before? s)

end PortForwarding.Text
