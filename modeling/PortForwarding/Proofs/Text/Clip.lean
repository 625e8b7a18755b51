import PortForwarding.Notification

/-!
# Texts that are cut to a number of bytes

The boundaries of a text are the lengths of its starts (`isBoundary_iff`), and
byte 0 is one. So the search backwards ends at the last boundary within the limit
(`boundaryBack?_spec`), and the cut there leaves whole characters. What the next
character would add to them ends at a boundary too. The search has not come across
it, so there is no room for it.
-/

namespace PortForwarding

namespace Text

variable {s kept : String} {n room : Nat}

/-! ## Boundaries -/

/-- **A boundary is where a start of the text ends.** -/
theorem isBoundary_iff :
    isBoundary s n = true ↔
      ∃ kept rest, s = kept ++ rest ∧ kept.utf8ByteSize = n := by
  unfold isBoundary
  rw [String.Pos.Raw.isValid_eq_true_iff, String.Pos.Raw.isValid_iff_exists_append]
  simp only [String.Pos.Raw.ext_iff, String.byteIdx_rawEndPos, eq_comm]

theorem isBoundary_zero (s : String) : isBoundary s 0 = true :=
  isBoundary_iff.mpr ⟨"", s, String.empty_append.symm, rfl⟩

/-- **The search backwards ends at the last boundary that is not beyond `room`.** -/
theorem boundaryBack?_spec (s : String) (room : Nat) :
    ∃ n, boundaryBack? s room = some n ∧ n ≤ room ∧ isBoundary s n = true ∧
      ∀ m, n < m → m ≤ room → isBoundary s m = false := by
  induction room with
  | zero =>
      refine ⟨0, ?_, Nat.le_refl 0, isBoundary_zero s, fun m hlt hle => ?_⟩
      · unfold boundaryBack?
        rw [if_pos (isBoundary_zero s)]
      · exact absurd hlt (Nat.not_lt.mpr hle)
  | succ room ih =>
      unfold boundaryBack?
      cases hroom : isBoundary s (room + 1) with
      | true =>
          rw [if_pos rfl]
          refine ⟨room + 1, rfl, Nat.le_refl _, hroom, fun m hlt hle => ?_⟩
          exact absurd hlt (Nat.not_lt.mpr hle)
      | false =>
          rw [if_neg Bool.false_ne_true]
          obtain ⟨n, hfound, hle, hboundary, hpassed⟩ := ih
          refine ⟨n, hfound, Nat.le_succ_of_le hle, hboundary, fun m hlt hm => ?_⟩
          rcases Nat.le_succ_iff.mp hm with hm | rfl
          · exact hpassed m hlt hm
          · exact hroom

/-! ## Cuts -/

theorem exists_before (h : isBoundary s n = true) :
    ∃ kept rest, before? s n = some kept ∧ s = kept ++ rest ∧
      kept.utf8ByteSize = n := by
  unfold before?
  rw [dif_pos h]
  have hsplits := String.Pos.splits (s := s) ⟨⟨n⟩,
    String.Pos.Raw.isValid_eq_true_iff.mp h⟩
  have hsize := congrArg String.Pos.Raw.byteIdx hsplits.offset_eq_rawEndPos
  exact ⟨_, _, rfl, hsplits.eq_append, hsize.symm⟩

/-- A start of a text together with the next character ends at a boundary. -/
theorem isBoundary_next {rest : String} {c : Char} {cs : List Char}
    (hs : s = kept ++ rest) (hrest : rest.toList = c :: cs) :
    isBoundary s (kept.utf8ByteSize + c.utf8Size) = true := by
  refine isBoundary_iff.mpr ⟨kept ++ String.singleton c, String.ofList cs, ?_, ?_⟩
  · rw [hs, String.append_assoc]
    apply String.toList_injective
    simp [hrest]
  · simp

/-- **A cut text is a start of the text that fits, and the next character would
not fit.** -/
theorem clip?_spec (room : Nat) (s : String) :
    ∃ kept rest, clip? room s = some kept ∧ s = kept ++ rest ∧
      kept.utf8ByteSize ≤ room ∧
      ∀ c ∈ rest.toList.head?, room < kept.utf8ByteSize + c.utf8Size := by
  unfold clip?
  by_cases hfits : s.utf8ByteSize ≤ room
  · refine ⟨s, "", if_pos hfits, String.append_empty.symm, hfits, fun c hc => ?_⟩
    exact absurd hc (by simp)
  · rw [if_neg hfits]
    obtain ⟨n, hfound, hle, hboundary, hpassed⟩ := boundaryBack?_spec s room
    obtain ⟨kept, rest, hbefore, hs, hsize⟩ := exists_before hboundary
    have hclip : (boundaryBack? s room).bind (before? s) = some kept := by
      rw [hfound, Option.bind_some, hbefore]
    refine ⟨kept, rest, hclip, hs, hsize ▸ hle, fun c hc =>
      Nat.lt_of_not_le fun hroom => ?_⟩
    -- with room for `c` too, the search would have ended behind it
    obtain ⟨cs, hrest⟩ := List.head?_eq_some_iff.mp hc
    have hnext := isBoundary_next hs hrest
    have hbeyond : n < kept.utf8ByteSize + c.utf8Size := by
      have := c.utf8Size_pos
      omega
    rw [hpassed _ hbeyond hroom] at hnext
    exact Bool.false_ne_true hnext

example : clip? 4 "aéé€" = some "aé" := by
  decide +kernel

end Text

/-! ## Notes -/

/-- **A note is the message as far as it fits.** Its end is always found, and
never divides a character. A message that fits is told in full. Of any other the
note has all characters up to the first one that would make it longer than the
limit, so at most three bytes are left unused. -/
theorem Notification.note_exact (n : Notification) :
    Text.clip? noteLimit n.message = some n.note ∧
    ∃ rest, n.message.toList = n.note.toList ++ rest ∧
      n.note.utf8ByteSize ≤ noteLimit ∧
      (n.note = n.message ↔ n.message.utf8ByteSize ≤ noteLimit) ∧
      (rest = [] ∨ ∃ c cs, rest = c :: cs ∧
        noteLimit < n.note.utf8ByteSize + c.utf8Size ∧
        1021 ≤ n.note.utf8ByteSize) := by
  obtain ⟨kept, rest, hclip, hmessage, hfits, hnext⟩ :=
    Text.clip?_spec noteLimit n.message
  have hnote : n.note = kept := by
    unfold note
    rw [hclip, Option.getD_some]
  rw [hnote]
  refine ⟨hclip, rest.toList, ?_, hfits, ?_, ?_⟩
  · rw [hmessage, String.toList_append]
  · refine ⟨fun heq => heq ▸ hfits, fun hwhole => ?_⟩
    unfold Text.clip? at hclip
    rw [if_pos hwhole] at hclip
    exact (Option.some.inj hclip).symm
  · cases hrest : rest.toList with
    | nil => exact Or.inl rfl
    | cons c cs =>
        have hroom := hnext c (by rw [hrest]; rfl)
        have hwidth := c.utf8Size_le_four
        unfold noteLimit at hroom ⊢
        exact Or.inr ⟨c, cs, rfl, hroom, by omega⟩

end PortForwarding
