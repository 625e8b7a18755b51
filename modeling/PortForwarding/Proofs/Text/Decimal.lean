import Mathlib.Algebra.Group.Nat.Defs
import PortForwarding.Text.Decimal

/-!
# Written numbers read back

The digits of a number have its value, with zeros in front of them or without. A
reader that takes digits until something else comes takes exactly these
(`span_digits`).
-/

namespace PortForwarding.Text

variable {n width : Nat} {acc : Nat} {cs rest : List Char}

theorem digitsValue_eq (acc : Nat) (cs : List Char) :
    digitsValue acc cs = Nat.ofDigitChars 10 cs acc := by
  unfold digitsValue Nat.ofDigitChars
  congr 1
  funext n c
  rw [Nat.mul_comm]

/-- **The digits of a number have its value.** -/
theorem digitsValue_toDigits (n : Nat) : digitsValue 0 (Nat.toDigits 10 n) = n := by
  rw [digitsValue_eq]
  exact Nat.ofDigitChars_toDigits (by decide) (by decide)

theorem isDigit_of_mem_toDigits : ∀ c ∈ Nat.toDigits 10 n, c.isDigit = true :=
  fun _ hc => Nat.isDigit_of_mem_toDigits (by decide) (by decide) hc

def EndsDigits (rest : List Char) : Prop :=
  ∀ c ∈ rest.head?, c.isDigit = false

theorem endsDigits_nil : EndsDigits [] := by
  intro c hc
  exact absurd hc (by simp)

theorem endsDigits_cons {c : Char} (h : c.isDigit = false) :
    EndsDigits (c :: rest) := by
  intro d hd
  obtain rfl : c = d := by simpa using hd
  exact h

theorem takeWhile_digits (hcs : ∀ c ∈ cs, c.isDigit = true)
    (hrest : EndsDigits rest) : (cs ++ rest).takeWhile Char.isDigit = cs := by
  rw [List.takeWhile_append_of_pos hcs]
  cases rest with
  | nil => simp
  | cons c rest =>
      rw [List.takeWhile_cons_of_neg (by simp [hrest c rfl]), List.append_nil]

theorem dropWhile_digits (hcs : ∀ c ∈ cs, c.isDigit = true)
    (hrest : EndsDigits rest) : (cs ++ rest).dropWhile Char.isDigit = rest := by
  rw [List.dropWhile_append_of_pos hcs]
  cases rest with
  | nil => rfl
  | cons c rest => rw [List.dropWhile_cons_of_neg (by simp [hrest c rfl])]

theorem toNat_of_isDigit {c : Char} (h : c.isDigit = true) :
    48 ≤ c.toNat ∧ c.toNat ≤ 57 := by
  simpa [Char.isDigit, UInt32.le_iff_toNat_le] using h

theorem digitsValue_lt (hcs : ∀ c ∈ cs, c.isDigit = true) :
    digitsValue acc cs < (acc + 1) * 10 ^ cs.length := by
  induction cs generalizing acc with
  | nil => simp [digitsValue]
  | cons c cs ih =>
      have hc := toNat_of_isDigit (hcs c List.mem_cons_self)
      have hzero : '0'.toNat = 48 := rfl
      have hnext : acc * 10 + (c.toNat - '0'.toNat) + 1 ≤ (acc + 1) * 10 := by omega
      calc digitsValue acc (c :: cs)
          = digitsValue (acc * 10 + (c.toNat - '0'.toNat)) cs := rfl
        _ < (acc * 10 + (c.toNat - '0'.toNat) + 1) * 10 ^ cs.length :=
            ih fun d hd => hcs d (List.mem_cons_of_mem c hd)
        _ ≤ (acc + 1) * 10 * 10 ^ cs.length := Nat.mul_le_mul_right _ hnext
        _ = (acc + 1) * 10 ^ (c :: cs).length := by
            rw [List.length_cons, Nat.pow_succ, Nat.mul_assoc, Nat.mul_comm 10]

/-- **A written number is read back** by a reader that knows a greater bound. -/
theorem readBelow_toDigits {bound : Nat} (hn : n < bound) :
    readBelow bound (Nat.toDigits 10 n) = some n := by
  have hdigits : (Nat.toDigits 10 n).all Char.isDigit = true :=
    List.all_eq_true.mpr isDigit_of_mem_toDigits
  unfold readBelow readNat
  rw [if_pos ⟨Nat.toDigits_ne_nil, hdigits⟩, digitsValue_toDigits]
  simp [hn]

/-- **A written 16-bit number is read back.** -/
theorem readWord_showNat (w : UInt16) : readWord (showNat w.toNat) = some w := by
  have hread := readBelow_toDigits w.toNat_lt
  unfold readWord showNat
  rw [String.toList_ofList]
  split
  · next cs hsign =>
      -- the digits of a number begin with no sign
      have hplus : '+' ∈ Nat.toDigits 10 w.toNat := hsign ▸ List.mem_cons_self
      exact absurd (isDigit_of_mem_toDigits '+' hplus) (by decide)
  · rw [hread]
    exact congrArg some (UInt16.ofNat_toNat)

/-! ## Zeros in front -/

def padded (width n : Nat) : List Char :=
  List.replicate (width - (Nat.toDigits 10 n).length) '0' ++ Nat.toDigits 10 n

theorem toList_showPadded (width n : Nat) :
    (showPadded width n).toList = padded width n :=
  String.toList_ofList

theorem isDigit_of_mem_padded : ∀ c ∈ padded width n, c.isDigit = true := by
  intro c hc
  rcases List.mem_append.mp hc with hc | hc
  · rw [List.eq_of_mem_replicate hc]
    rfl
  · exact isDigit_of_mem_toDigits c hc

theorem digitsValue_zeros (k : Nat) (cs : List Char) :
    digitsValue 0 (List.replicate k '0' ++ cs) = digitsValue 0 cs := by
  induction k with
  | zero => rfl
  | succ k ih =>
      rw [List.replicate_succ, List.cons_append]
      exact ih

theorem digitsValue_padded (width n : Nat) : digitsValue 0 (padded width n) = n := by
  unfold padded
  rw [digitsValue_zeros, digitsValue_toDigits]

theorem length_padded (hwidth : 0 < width) (hn : n < 10 ^ width) :
    (padded width n).length = width := by
  have hdigits : (Nat.toDigits 10 n).length ≤ width :=
    (Nat.length_toDigits_le_iff (by decide) hwidth).mpr hn
  unfold padded
  rw [List.length_append, List.length_replicate]
  omega

theorem padded_ne_nil : padded width n ≠ [] := by
  intro h
  exact Nat.toDigits_ne_nil (List.append_eq_nil_iff.mp h).2

end PortForwarding.Text
