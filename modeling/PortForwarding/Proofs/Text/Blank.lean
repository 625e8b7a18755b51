import Mathlib.Data.List.DropRight
import PortForwarding.Text.Blank

/-!
# Trimmed text

Trimming leaves nothing to trim (`trim_trim`): what is left begins and ends with
characters that are not blank, and neither end is touched again. A word among
blanks is left as it is (`trim_around`), and characters that show in ASCII make
such words.
-/

namespace PortForwarding.Text

variable {cs ds : List Char}

theorem trimStart_of_isPrefix (h : ds <+: cs) (hcs : trimStart cs = cs) :
    trimStart ds = ds := by
  obtain ⟨tail, rfl⟩ := h
  unfold trimStart at hcs ⊢
  cases ds with
  | nil => rfl
  | cons c ds =>
      by_cases hc : isBlank c = true
      · -- a blank in front would have gone
        rw [List.cons_append, List.dropWhile_cons_of_pos hc] at hcs
        have hlength := (List.dropWhile_sublist (l := ds ++ tail) isBlank).length_le
        rw [hcs, List.length_cons] at hlength
        omega
      · exact List.dropWhile_cons_of_neg hc

/-- **Trimming twice is trimming once.** -/
theorem trim_trim (cs : List Char) : trim (trim cs) = trim cs := by
  unfold trim
  have hstart : trimStart (trimStart cs) = trimStart cs :=
    List.dropWhile_idempotent isBlank cs
  have hcut : trimEnd (trimStart cs) <+: trimStart cs := List.rdropWhile_prefix isBlank _
  rw [trimStart_of_isPrefix hcut hstart]
  exact List.rdropWhile_idempotent isBlank (trimStart cs)

theorem trimmed_trimmed (s : String) : trimmed (trimmed s) = trimmed s := by
  unfold trimmed
  rw [String.toList_ofList, trim_trim]

/-! ## What trimming takes away -/

theorem trimStart_append (hcs : ∀ c ∈ cs, isBlank c = true) :
    trimStart (cs ++ ds) = trimStart ds :=
  List.dropWhile_append_of_pos hcs

theorem trimEnd_append (hds : ∀ c ∈ ds, isBlank c = true) :
    trimEnd (cs ++ ds) = trimEnd cs := by
  unfold trimEnd
  rw [List.reverse_append, List.dropWhile_append_of_pos]
  intro c hc
  exact hds c (List.mem_reverse.mp hc)

/-- **Blanks around a word are trimmed**, and the word stays. -/
theorem trim_around {before word after : List Char}
    (hbefore : ∀ c ∈ before, isBlank c = true)
    (hword : ∀ c ∈ word, isBlank c = false)
    (hafter : ∀ c ∈ after, isBlank c = true) :
    trim (before ++ (word ++ after)) = word := by
  unfold trim
  rw [trimStart_append hbefore]
  cases word with
  | nil =>
      -- nothing but blanks is left
      have hnone : trimStart ([] ++ after) = [] := by
        rw [List.nil_append, ← List.append_nil after, trimStart_append hafter]
        rfl
      rw [hnone]
      rfl
  | cons c word =>
      have hstart : trimStart ((c :: word) ++ after) = (c :: word) ++ after :=
        List.dropWhile_cons_of_neg (by simp [hword c List.mem_cons_self])
      have hlast : ((c :: word).reverse).dropWhile isBlank = (c :: word).reverse := by
        apply List.dropWhile_eq_self_iff.mpr
        intro hpos
        simp only [hword _ (List.mem_reverse.mp (List.getElem_mem hpos)),
          Bool.false_eq_true, not_false_eq_true]
      rw [hstart, trimEnd_append hafter]
      unfold trimEnd
      rw [hlast, List.reverse_reverse]

theorem trim_eq_nil_iff : trim cs = [] ↔ ∀ c ∈ cs, isBlank c = true := by
  constructor
  · intro h c hc
    have hstart : trimStart cs = [] := by
      by_contra hsome
      -- the first character that is left is no blank, so that trimming the end
      -- leaves it
      obtain ⟨d, rest, hrest⟩ := List.exists_cons_of_ne_nil hsome
      have hd : isBlank d = false := by
        have hhead := List.head?_dropWhile_not isBlank cs
        rw [show cs.dropWhile isBlank = d :: rest from hrest] at hhead
        simpa using hhead
      have hall : ∀ c ∈ trimStart cs, isBlank c = true := by
        intro c hc
        have hend := List.dropWhile_eq_nil_iff.mp (List.reverse_eq_nil_iff.mp h)
        exact hend c (List.mem_reverse.mpr hc)
      rw [hall d (hrest ▸ List.mem_cons_self)] at hd
      exact Bool.noConfusion hd
    exact List.dropWhile_eq_nil_iff.mp hstart c hc
  · intro h
    have haround : trim (cs ++ ([] ++ [])) = [] :=
      trim_around h (List.forall_mem_nil _) (List.forall_mem_nil _)
    rwa [List.append_nil, List.append_nil] at haround

/-! ## Characters of ASCII -/

theorem isLower_iff {c : Char} : c.isLower = true ↔ 'a' ≤ c ∧ c ≤ 'z' := by
  rw [show c.isLower = (decide ('a' ≤ c) && decide (c ≤ 'z')) from rfl, Bool.and_eq_true,
    decide_eq_true_iff, decide_eq_true_iff]

theorem isDigit_iff {c : Char} : c.isDigit = true ↔ '0' ≤ c ∧ c ≤ '9' := by
  rw [show c.isDigit = (decide ('0' ≤ c) && decide (c ≤ '9')) from rfl, Bool.and_eq_true,
    decide_eq_true_iff, decide_eq_true_iff]

theorem isBlank_eq_false_of_visible {c : Char} (hlow : '!' ≤ c) (hhigh : c ≤ '~') :
    isBlank c = false := by
  have hlow : 33 ≤ c.toNat := hlow
  have hhigh : c.toNat ≤ 126 := hhigh
  simp [isBlank, blankRanges]
  omega

end PortForwarding.Text
