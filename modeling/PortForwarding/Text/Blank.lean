/-! # Blank characters and trimming

Text typed by hand carries stray space, and space is what Unicode calls
`White_Space`, not ASCII alone. `trim` removes it from both ends and leaves the
inside alone.
-/

namespace PortForwarding.Text

/-- The code points with the Unicode property `White_Space`, as closed ranges. -/
def blankRanges : List (Nat × Nat) :=
  [(0x9, 0xD), (0x20, 0x20), (0x85, 0x85), (0xA0, 0xA0), (0x1680, 0x1680),
    (0x2000, 0x200A), (0x2028, 0x2029), (0x202F, 0x202F), (0x205F, 0x205F),
    (0x3000, 0x3000)]

def isBlank (c : Char) : Bool :=
  blankRanges.any fun r => decide (r.1 ≤ c.toNat) && decide (c.toNat ≤ r.2)

/-! ## Trimming -/

/-- The characters from the first one that is not blank. -/
def trimStart (cs : List Char) : List Char :=
  cs.dropWhile isBlank

/-- The characters up to the last one that is not blank. -/
def trimEnd (cs : List Char) : List Char :=
  (cs.reverse.dropWhile isBlank).reverse

/-- The characters between the first and the last one that is not blank. -/
def trim (cs : List Char) : List Char :=
  trimEnd (trimStart cs)

def trimmed (s : String) : String :=
  String.ofList (trim s.toList)

/-! ## Letters without regard to case

Keywords are compared after folding `A`–`Z` only: a letter outside ASCII equals
nothing but itself. -/

/-- The text with its ASCII capitals made small. -/
def lowered (s : String) : String :=
  String.ofList (s.toList.map Char.toLower)

/-- Equality up to the case of ASCII letters. -/
def sameWord (s t : String) : Bool :=
  s.toList.map Char.toLower == t.toList.map Char.toLower

end PortForwarding.Text
