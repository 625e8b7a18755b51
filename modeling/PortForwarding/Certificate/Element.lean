/-! # Tagged elements

Certificates are written as elements: a tag, the length of the content, and the
content, which may be made of elements itself. A length below 128 is one byte; a
greater one is the number of its digits, marked by the highest bit, and its digits
to the base 256, of which no more than needed are written.
-/

namespace PortForwarding.Certificate

/-- A tag with its content. -/
structure Element where
  tag : UInt8
  content : List UInt8
  deriving DecidableEq, Repr, Inhabited

namespace Element

/-! ## Tags -/

/-- The tag of a truth value. -/
def boolean : UInt8 := 0x01

/-- The tag of a whole number. -/
def integer : UInt8 := 0x02

/-- The tag of a string of bits. -/
def bits : UInt8 := 0x03

/-- The tag of a string of bytes. -/
def bytes : UInt8 := 0x04

/-- The tag of an identifier. -/
def identifier : UInt8 := 0x06

/-- The tag of a sequence of elements. -/
def sequence : UInt8 := 0x30

/-- The tag that a place in a sequence gives to an element which may be left out. -/
def optional (place : UInt8) : UInt8 := 0xA0 + place

/-! ## Reading -/

/-- The number with the given digits to the base 256. -/
def number (digits : List UInt8) : Nat :=
  digits.foldl (fun n d => n * 256 + d.toNat) 0

/-- The least number that needs so many digits after the byte that counts them. -/
def leastOfWidth (width : Nat) : Nat :=
  if width = 1 then 128 else Nat.pow 256 (width - 1)

def lengthBound : Nat := 0xFFFF

/-- The length at the front of some bytes, and the bytes after it. -/
def length? : List UInt8 → Option (Nat × List UInt8)
  | [] => none
  | b :: rest =>
    let width := b.toNat - 128
    let digits := rest.take width
    if b < 128 then some (b.toNat, rest)
    else if 1 ≤ width ∧ width ≤ 4 ∧ digits.length = width ∧
      leastOfWidth width ≤ number digits then
      some (number digits, rest.drop width)
    else none

/-- The element at the front of some bytes, and the bytes after it. -/
def read? : List UInt8 → Option (Element × List UInt8)
  | [] => none
  | tag :: rest =>
    match length? rest with
    | none => none
    | some (n, rest) =>
      if n < lengthBound ∧ n ≤ rest.length then
        some (⟨tag, rest.take n⟩, rest.drop n)
      else none

/-- The bytes after a length are fewer than with it. -/
theorem length_lt_of_length? {bs rest : List UInt8} {n : Nat}
    (h : length? bs = some (n, rest)) : rest.length < bs.length := by
  cases bs with
  | nil => simp [length?] at h
  | cons b bs =>
    simp only [length?] at h
    split at h
    · simp only [Option.some.injEq, Prod.mk.injEq] at h
      simp [← h.2]
    · split at h
      · simp only [Option.some.injEq, Prod.mk.injEq] at h
        simp only [← h.2, List.length_drop, List.length_cons]
        omega
      · simp at h

/-- The bytes after an element are fewer than with it. -/
theorem length_lt_of_read? {bs rest : List UInt8} {e : Element}
    (h : read? bs = some (e, rest)) : rest.length < bs.length := by
  cases bs with
  | nil => simp [read?] at h
  | cons tag bs =>
    simp only [read?] at h
    split at h
    · simp at h
    · next n after hlength =>
      have := length_lt_of_length? hlength
      split at h
      · simp only [Option.some.injEq, Prod.mk.injEq] at h
        simp only [← h.2, List.length_drop, List.length_cons]
        omega
      · simp at h

/-- The elements that some bytes are made of. -/
def readAll? (bs : List UInt8) : Option (List Element) :=
  if bs = [] then some []
  else
    match h : read? bs with
    | none => none
    | some (e, rest) =>
      have := length_lt_of_read? h
      (readAll? rest).map (e :: ·)
termination_by bs.length

/-- The only element that some bytes are made of. -/
def readOne? (bs : List UInt8) : Option Element :=
  match read? bs with
  | some (e, []) => some e
  | _ => none

def parts? (e : Element) : Option (List Element) :=
  if e.tag = sequence then readAll? e.content else none

end Element

end PortForwarding.Certificate
