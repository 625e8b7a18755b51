/-! # Base 64

Bytes written as digits of six bits, in quanta of four digits for three bytes.
Space may stand anywhere. The last quantum may be short, or be filled with pads;
the quanta come in pairs, and the second of a pair may be filled with pads
wherever it stands, so that texts with an even number of quanta can be joined.
-/

namespace PortForwarding.Base64

/-- What a character that is not space stands for. -/
inductive Symbol where
  | digit (value : Nat)
  | pad
  deriving DecidableEq, Repr

def digit? (c : Char) : Option Nat :=
  if c.isUpper then some (c.toNat - 'A'.toNat)
  else if c.isLower then some (c.toNat - 'a'.toNat + 26)
  else if c.isDigit then some (c.toNat - '0'.toNat + 52)
  else if c = '+' then some 62
  else if c = '/' then some 63
  else none

def isSpace (c : Char) : Bool :=
  c == ' ' || (decide (9 ≤ c.toNat) && decide (c.toNat ≤ 13))

def symbol? (c : Char) : Option Symbol :=
  if c = '=' then some .pad else (digit? c).map .digit

/-- The symbols of a text, if it holds nothing but symbols and space. -/
def symbols? (cs : List Char) : Option (List Symbol) :=
  (cs.filter fun c => !isSpace c).mapM symbol?

/-! ## Quanta -/

/-- The byte of two digits. -/
def oneByte (a b : Nat) : List UInt8 :=
  [UInt8.ofNat (a * 4 + b / 16)]

/-- The bytes of three digits. -/
def twoBytes (a b c : Nat) : List UInt8 :=
  oneByte a b ++ [UInt8.ofNat (b % 16 * 16 + c / 4)]

/-- The bytes of four digits. -/
def threeBytes (a b c d : Nat) : List UInt8 :=
  twoBytes a b c ++ [UInt8.ofNat (c % 4 * 64 + d)]

/-- The bytes of a quantum that may be filled with pads. -/
def quantum? : Symbol → Symbol → Symbol → Symbol → Option (List UInt8)
  | .digit a, .digit b, .digit c, .digit d => some (threeBytes a b c d)
  | .digit a, .digit b, .digit c, .pad => some (twoBytes a b c)
  | .digit a, .digit b, .pad, .pad => some (oneByte a b)
  | _, _, _, _ => none

/-- The bytes of symbols that begin with the first or with the second quantum of a
pair. A first quantum may be filled with pads only if nothing comes after it. -/
def ofSymbols? (second : Bool) : List Symbol → Option (List UInt8)
  | [] => some []
  | [.digit a, .digit b] => some (oneByte a b)
  | [.digit a, .digit b, .digit c] => some (twoBytes a b c)
  | a :: b :: c :: d :: rest =>
    if !second && !rest.isEmpty && d == .pad then none
    else do
      let bytes ← quantum? a b c d
      let more ← ofSymbols? (!second) rest
      return bytes ++ more
  | _ => none

def decode? (cs : List Char) : Option (List UInt8) := do
  ofSymbols? false (← symbols? cs)

end PortForwarding.Base64
