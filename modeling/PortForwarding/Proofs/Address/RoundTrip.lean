import Mathlib.Data.List.TakeWhile
import PortForwarding.Address.Reader
import PortForwarding.Proofs.Json.RoundTrip

/-!
# An address reads back from its text

Every address is read back from its canonical text (`parse_text`). A dotted quad
is taken number by number. The groups of a version 6 address are taken one after
another until two colons come or the text ends (`readGroups_joined`); what the two
colons leave out is the run of zeros that was there (`eq_of_longestZeros`). No
group is taken for the first number of a quad, because no point follows its
digits.
-/

namespace PortForwarding.Address

open Text Json

variable {cs ds rest : List Char} {n : Nat}

/-! ## Numbers of a quad -/

/-- A number of a quad is read back, whatever follows that is no digit. -/
theorem readByte_toDigits (b : UInt8) (hrest : EndsDigits rest) :
    readByte (Nat.toDigits 10 b.toNat ++ rest) = some (b, rest) := by
  have hlt : b.toNat < 256 := b.toNat_lt
  have hlength : (Nat.toDigits 10 b.toNat).length ≤ 3 :=
    (Nat.length_toDigits_le_iff (by decide) (by decide)).mpr (by omega)
  have hzero : (Nat.toDigits 10 b.toNat).head? = some '0' →
      (Nat.toDigits 10 b.toNat).length = 1 := by
    intro hhead
    rcases Nat.eq_zero_or_pos b.toNat with hnil | hpos
    · rw [hnil]
      rfl
    · exact absurd rfl (head_toDigits hpos '0' hhead)
  unfold readByte
  simp only [takeWhile_digits isDigit_of_mem_toDigits hrest, digitsValue_toDigits]
  rw [if_pos ⟨Nat.toDigits_ne_nil, hlength, hlt, hzero⟩, List.drop_left,
    UInt8.ofNat_toNat]

def quadChars (a b c d : UInt8) : List Char :=
  Nat.toDigits 10 a.toNat ++ '.' :: (Nat.toDigits 10 b.toNat ++ '.' ::
    (Nat.toDigits 10 c.toNat ++ '.' :: Nat.toDigits 10 d.toNat))

theorem toList_quadText (a b c d : UInt8) :
    (quadText a b c d).toList = quadChars a b c d := by
  simp [quadText, quadChars, showNat, String.toList_append]

theorem readQuad_quadChars (a b c d : UInt8) :
    readQuad (quadChars a b c d) = some ((a, b, c, d), []) := by
  have hpoint : ∀ rest : List Char, EndsDigits ('.' :: rest) := fun rest =>
    endsDigits_cons rfl
  have hlast := readByte_toDigits d endsDigits_nil
  rw [List.append_nil] at hlast
  unfold readQuad quadChars
  simp [readByte_toDigits, hpoint, hlast]

theorem rest_of_readByte {b : UInt8} (h : readByte cs = some (b, rest)) :
    rest = cs.dropWhile Char.isDigit := by
  have hdrop : cs.drop (cs.takeWhile Char.isDigit).length =
      cs.dropWhile Char.isDigit := by
    have hsplit := List.takeWhile_append_dropWhile (p := Char.isDigit) (l := cs)
    have hdrop := congrArg (List.drop (cs.takeWhile Char.isDigit).length) hsplit
    rw [List.drop_left] at hdrop
    exact hdrop.symm
  unfold readByte at h
  simp only at h
  split at h
  · rw [← hdrop, ← (Prod.mk.inj (Option.some.inj h)).2]
  · exact absurd h (by simp)

theorem readQuad_eq_none (h : ∀ c ∈ (cs.dropWhile Char.isDigit).head?, c ≠ '.') :
    readQuad cs = none := by
  unfold readQuad
  cases hread : readByte cs with
  | none => rfl
  | some p =>
      obtain ⟨b, rest⟩ := p
      have hrest := rest_of_readByte hread
      rw [← hrest] at h
      cases rest with
      | nil => rfl
      | cons c rest =>
          have hpoint : c ≠ '.' := h c rfl
          simp [hpoint]

/-! ## Groups -/

def EndsGroup (rest : List Char) : Prop :=
  ∀ c ∈ rest.head?, hexValue c = none ∧ c ≠ '.'

theorem endsGroup_nil : EndsGroup [] := by
  intro c hc
  exact absurd hc (by simp)

theorem endsGroup_colon : EndsGroup (':' :: rest) := by
  intro c hc
  obtain rfl : ':' = c := by simpa using hc
  exact ⟨by decide, by decide⟩

def groupChars (g : UInt16) : List Char :=
  Nat.toDigits 16 g.toNat

def hexDigitsValue (ds : List Char) : Nat :=
  ds.foldl (fun n c => n * 16 + (hexValue c).getD 0) 0

/-- The hexadecimal digits of a number are digits, and have its value. -/
theorem toDigits_hex (n : Nat) :
    (∀ c ∈ Nat.toDigits 16 n, (hexValue c).isSome) ∧
      hexDigitsValue (Nat.toDigits 16 n) = n := by
  induction n using Nat.strongRecOn with
  | ind n ih =>
      by_cases hlt : n < 16
      · have hdigit : hexValue (Nat.digitChar n) = some n := hexValue_hexDigit n hlt
        rw [Nat.toDigits_of_lt_base hlt]
        constructor
        · intro c hc
          obtain rfl := List.mem_singleton.mp hc
          rw [hdigit]
          rfl
        · simp [hexDigitsValue, hdigit]
      · obtain ⟨hall, hvalue⟩ := ih (n / 16) (by omega)
        have hdigit : hexValue (Nat.digitChar (n % 16)) = some (n % 16) :=
          hexValue_hexDigit (n % 16) (by omega)
        unfold hexDigitsValue at hvalue ⊢
        rw [Nat.toDigits_of_base_le (by decide) (by omega)]
        constructor
        · intro c hc
          rcases List.mem_append.mp hc with hc | hc
          · exact hall c hc
          · obtain rfl := List.mem_singleton.mp hc
            rw [hdigit]
            rfl
        · rw [List.foldl_append, hvalue]
          simp only [List.foldl_cons, List.foldl_nil, hdigit, Option.getD_some]
          omega

theorem takeWhile_hex (hds : ∀ c ∈ ds, (hexValue c).isSome) (hrest : EndsGroup rest) :
    (ds ++ rest).takeWhile (fun c => (hexValue c).isSome) = ds := by
  rw [List.takeWhile_append_of_pos hds]
  cases rest with
  | nil => simp
  | cons c rest =>
      rw [List.takeWhile_cons_of_neg (by simp [(hrest c rfl).1]), List.append_nil]

/-- **A group is read back**, whatever follows that belongs to no number. -/
theorem readGroup_groupChars (g : UInt16) (hrest : EndsGroup rest) :
    readGroup (groupChars g ++ rest) = some (g, rest) := by
  obtain ⟨hall, hvalue⟩ := toDigits_hex g.toNat
  have hlt : g.toNat < 65536 := g.toNat_lt
  have hlength : (Nat.toDigits 16 g.toNat).length ≤ 4 :=
    (Nat.length_toDigits_le_iff (by decide) (by decide)).mpr (by omega)
  unfold hexDigitsValue at hvalue
  unfold readGroup groupChars
  simp only [takeWhile_hex hall hrest, hvalue]
  rw [if_pos ⟨Nat.toDigits_ne_nil, hlength⟩, List.drop_left, UInt16.ofNat_toNat]

theorem readQuad_hex (hds : ∀ c ∈ ds, (hexValue c).isSome) (hrest : EndsGroup rest) :
    readQuad (ds ++ rest) = none := by
  refine readQuad_eq_none ?_
  induction ds with
  | nil =>
      cases rest with
      | nil => exact fun c hc => absurd hc (by simp)
      | cons c rest =>
          have hdigit : c.isDigit = false := by
            have hnone := (hrest c rfl).1
            unfold hexValue at hnone
            split at hnone
            · exact absurd hnone (by simp)
            · next h => simpa using h
          intro d hd
          rw [List.nil_append, List.dropWhile_cons_of_neg (by simp [hdigit])] at hd
          obtain rfl : c = d := by simpa using hd
          exact (hrest c rfl).2
  | cons c ds ih =>
      rw [List.cons_append]
      by_cases hdigit : c.isDigit = true
      · rw [List.dropWhile_cons_of_pos hdigit]
        exact ih fun d hd => hds d (List.mem_cons_of_mem _ hd)
      · rw [List.dropWhile_cons_of_neg hdigit]
        rintro d hd rfl
        obtain rfl : c = '.' := by simpa using hd
        exact absurd (hds '.' List.mem_cons_self) (by decide)

/-! ## Rows of groups -/

/-- The characters of groups, each with a colon in front; the first only if others
are before it. -/
def joined : Bool → List UInt16 → List Char
  | _, [] => []
  | true, g :: gs => groupChars g ++ joined false gs
  | false, g :: gs => ':' :: (groupChars g ++ joined false gs)

theorem toList_groupsText (gs : List UInt16) :
    (groupsText gs).toList = joined true gs := by
  induction gs with
  | nil => simp [groupsText, joined]
  | cons g gs ih =>
      unfold groupsText at ih ⊢
      cases gs with
      | nil => simp [joined, groupText, groupChars]
      | cons h gs =>
          rw [List.map_cons] at ih
          rw [List.map_cons, List.map_cons, String.intercalate_cons_cons,
            String.toList_append, ih]
          simp [joined, groupText, groupChars]

def Stops (rest : List Char) : Prop :=
  rest = [] ∨ ∃ tail, rest = ':' :: ':' :: tail

theorem Stops.endsGroup (h : Stops rest) : EndsGroup rest := by
  rcases h with rfl | ⟨tail, rfl⟩
  · exact endsGroup_nil
  · exact endsGroup_colon

theorem endsGroup_joined (gs : List UInt16) (h : Stops rest) :
    EndsGroup (joined false gs ++ rest) := by
  cases gs with
  | nil => exact h.endsGroup
  | cons g gs => exact endsGroup_colon

theorem afterColon_joined (first : Bool) (g : UInt16) (gs : List UInt16) :
    afterColon first (joined first (g :: gs) ++ rest) =
      some (groupChars g ++ (joined false gs ++ rest)) := by
  cases first <;> simp [joined, afterColon]

theorem readGroups_stops (first : Bool) (limit : Nat) (h : Stops rest) :
    readGroups first limit rest = ([], false, rest) := by
  cases limit with
  | zero => rfl
  | succ limit =>
      have hquad : (afterColon first rest).bind readQuad = none := by
        rcases h with rfl | ⟨tail, rfl⟩ <;> cases first <;> rfl
      have hgroup : (afterColon first rest).bind readGroup = none := by
        rcases h with rfl | ⟨tail, rfl⟩ <;> cases first <;> rfl
      unfold readGroups
      simp [hquad, hgroup]

/-- **Groups are read one after another** until they stop. -/
theorem readGroups_joined (first : Bool) (limit : Nat) {gs : List UInt16}
    (hlimit : gs.length ≤ limit) (h : Stops rest) :
    readGroups first limit (joined first gs ++ rest) = (gs, false, rest) := by
  induction gs generalizing first limit with
  | nil =>
      have hnil : joined first [] = [] := by cases first <;> rfl
      rw [hnil]
      exact readGroups_stops first limit h
  | cons g gs ih =>
      obtain ⟨limit, rfl⟩ : ∃ l, limit = l + 1 := by
        cases limit with
        | zero => exact absurd hlimit (by simp)
        | succ limit => exact ⟨limit, rfl⟩
      have hends := endsGroup_joined gs h
      have hquad : readQuad (groupChars g ++ (joined false gs ++ rest)) = none :=
        readQuad_hex (toDigits_hex g.toNat).1 hends
      have hgroup := readGroup_groupChars g hends
      have hrest := ih false limit (Nat.le_of_succ_le_succ hlimit)
      unfold readGroups
      simp [afterColon_joined, hquad, hgroup, hrest]

/-! ## The run of zeros -/

theorem eq_of_leadingZeros (gs : List UInt16) :
    gs = List.replicate (leadingZeros gs) 0 ++ gs.drop (leadingZeros gs) ∧
    leadingZeros gs ≤ gs.length := by
  have hzeros : gs.takeWhile (· == 0) = List.replicate (leadingZeros gs) 0 := by
    refine List.eq_replicate_of_mem fun g hg => ?_
    simpa using List.mem_takeWhile_imp hg
  have hsplit := List.takeWhile_append_dropWhile (p := fun g : UInt16 => g == 0) (l := gs)
  have hdrop := congrArg (List.drop (leadingZeros gs)) hsplit
  unfold leadingZeros at hdrop ⊢
  rw [List.drop_left] at hdrop
  rw [← hdrop]
  unfold leadingZeros at hzeros
  rw [← hzeros]
  exact ⟨hsplit.symm, (List.takeWhile_sublist _).length_le⟩

/-- **What the longest run of zeros leaves out is zeros**, and nothing more. -/
theorem eq_of_longestZeros (gs : List UInt16) :
    gs = gs.take (longestZeros gs).1 ++ (List.replicate (longestZeros gs).2 0 ++
      gs.drop ((longestZeros gs).1 + (longestZeros gs).2)) ∧
    (longestZeros gs).1 + (longestZeros gs).2 ≤ gs.length := by
  induction gs with
  | nil => exact ⟨rfl, Nat.le_refl 0⟩
  | cons g gs ih =>
      unfold longestZeros
      simp only
      split
      · -- the run is further on, and this group is before it
        obtain ⟨hsplit, hle⟩ := ih
        have hsucc : (longestZeros gs).1 + 1 + (longestZeros gs).2 =
            (longestZeros gs).1 + (longestZeros gs).2 + 1 := by omega
        rw [List.take_succ_cons, hsucc, List.drop_succ_cons, List.cons_append, ← hsplit]
        exact ⟨rfl, by simpa using hle⟩
      · rw [List.take_zero, List.nil_append, Nat.zero_add]
        exact eq_of_leadingZeros (g :: gs)

/-! ## Version 6 -/

theorem ofGroups?_toList (groups : Vector UInt16 8) :
    ofGroups? groups.toList = some (.v6 groups) := by
  unfold ofGroups?
  have hsize : groups.toList.toArray.size = 8 := by simp
  rw [dif_pos hsize]
  rfl

theorem parseGroups_joined {groups : Vector UInt16 8} :
    parseGroups (joined true groups.toList) = some (.v6 groups) := by
  have hlength : groups.toList.length ≤ 8 := by simp
  have hread := readGroups_joined true 8 hlength (Or.inl rfl)
  rw [List.append_nil] at hread
  unfold parseGroups
  rw [hread]
  simp [ofGroups?_toList]

/-- Groups around a run of zeros are read back with the zeros between them. -/
theorem parseGroups_run {groups : Vector UInt16 8} {before after : List UInt16}
    {zeros : Nat}
    (hgroups : groups.toList = before ++ (List.replicate zeros 0 ++ after))
    (hzeros : 1 < zeros) :
    parseGroups (joined true before ++ ':' :: ':' :: joined true after) =
      some (.v6 groups) := by
  have hlength := congrArg List.length hgroups
  simp only [Vector.length_toList, List.length_append, List.length_replicate] at hlength
  have hbefore : before.length ≤ 8 := by omega
  have hafter : after.length ≤ 7 - before.length := by omega
  have hhead := readGroups_joined true 8 hbefore (Or.inr ⟨joined true after, rfl⟩)
  have htail := readGroups_joined true (7 - before.length) hafter (Or.inl rfl)
  rw [List.append_nil] at htail
  have hrun : 8 - before.length - after.length = zeros := by omega
  unfold parseGroups
  rw [hhead]
  simp only [htail, hrun]
  rw [if_neg (by omega)]
  simp only [List.isEmpty_nil, if_true]
  rw [List.append_assoc, ← hgroups]
  exact ofGroups?_toList groups

theorem readQuad_joined (gs : List UInt16) (h : Stops rest) :
    readQuad (joined true gs ++ rest) = none := by
  cases gs with
  | nil =>
      show readQuad ([] ++ rest) = none
      exact readQuad_hex (List.forall_mem_nil _) h.endsGroup
  | cons g gs =>
      show readQuad (groupChars g ++ joined false gs ++ rest) = none
      rw [List.append_assoc]
      exact readQuad_hex (toDigits_hex g.toNat).1 (endsGroup_joined gs h)

theorem parse_of_groups {s : String} {groups : Vector UInt16 8}
    (hquad : readQuad s.toList = none)
    (hgroups : parseGroups s.toList = some (.v6 groups)) :
    parse s = some (.v6 groups) := by
  unfold parse
  rw [hquad]
  exact hgroups

/-- **The groups of an address are read back**, with or without a run of zeros
left out. -/
theorem parse_compressedText (groups : Vector UInt16 8) :
    parse (compressedText groups.toList) = some (.v6 groups) := by
  obtain ⟨hsplit, -⟩ := eq_of_longestZeros groups.toList
  unfold compressedText
  simp only
  split
  · next hrun =>
      refine parse_of_groups ?_ ?_
      all_goals rw [String.toList_append, String.toList_append, toList_groupsText,
        toList_groupsText, List.append_assoc]
      · exact readQuad_joined _ (Or.inr ⟨_, rfl⟩)
      · exact parseGroups_run hsplit hrun
  · refine parse_of_groups ?_ ?_
    all_goals rw [toList_groupsText]
    · have hquad := readQuad_joined groups.toList (Or.inl rfl)
      rwa [List.append_nil] at hquad
    · exact parseGroups_joined

/-! ## A version 4 address in a version 6 one -/

theorem group_of_bytes (g : UInt16) :
    (g >>> 8).toUInt8.toUInt16 * 256 + g.toUInt8.toUInt16 = g := by
  have hlt : g.toNat < 65536 := g.toNat_lt
  apply UInt16.toNat_inj.mp
  simp [Nat.shiftRight_eq_div_pow]
  omega

theorem readGroups_quad (a b c d : UInt8) (g : UInt16) :
    readGroups true 7 (groupChars g ++ ':' :: quadChars a b c d) =
      (g :: quadGroups (a, b, c, d), true, []) := by
  have hquad : readQuad (groupChars g ++ ':' :: quadChars a b c d) = none :=
    readQuad_hex (toDigits_hex g.toNat).1 endsGroup_colon
  have hgroup : readGroup (groupChars g ++ ':' :: quadChars a b c d) = _ :=
    readGroup_groupChars g endsGroup_colon
  have hrest : readGroups false 6 (':' :: quadChars a b c d) =
      (quadGroups (a, b, c, d), true, []) := by
    unfold readGroups
    simp [afterColon, readQuad_quadChars]
  unfold readGroups
  simp [afterColon, hquad, hgroup, hrest]

/-- **An address that carries a version 4 one is read back** from the dotted quad
at its end. -/
theorem parse_mapped {groups : Vector UInt16 8} {g h : UInt16}
    (hgroups : groups.toList = [0, 0, 0, 0, 0, 0xffff, g, h]) :
    parse ("::ffff:" ++ quadText (g >>> 8).toUInt8 g.toUInt8
      (h >>> 8).toUInt8 h.toUInt8) = some (.v6 groups) := by
  generalize hquad :
    quadChars (g >>> 8).toUInt8 g.toUInt8 (h >>> 8).toUInt8 h.toUInt8 = quad
  have hchars : ("::ffff:" ++
      quadText (g >>> 8).toUInt8 g.toUInt8 (h >>> 8).toUInt8 h.toUInt8).toList =
      ':' :: ':' :: (groupChars 0xffff ++ ':' :: quad) := by
    rw [String.toList_append, toList_quadText, hquad]
    rfl
  have hread : readGroups true 7 (groupChars 0xffff ++ ':' :: quad) =
      ([0xffff, g, h], true, []) := by
    rw [← hquad, readGroups_quad]
    simp only [quadGroups, group_of_bytes]
  refine parse_of_groups ?_ ?_
  all_goals rw [hchars]
  · show readQuad ([] ++ _) = none
    exact readQuad_hex (List.forall_mem_nil _) endsGroup_colon
  · unfold parseGroups
    rw [readGroups_stops true 8 (Or.inr ⟨_, rfl⟩)]
    simp only [List.length_nil, hread]
    exact (congrArg ofGroups? hgroups.symm).trans (ofGroups?_toList groups)

/-! ## Both versions -/

/-- **An address is read back from its text.** -/
theorem parse_text (a : Address) : parse a.text = some a := by
  cases a with
  | v4 a b c d =>
      unfold parse text
      rw [toList_quadText, readQuad_quadChars]
  | v6 groups =>
      unfold text
      simp only
      split
      · next g h hgroups => exact parse_mapped hgroups
      · exact parse_compressedText groups

theorem text_injective : Function.Injective text := by
  intro a b h
  have hparse := parse_text a
  rw [h, parse_text] at hparse
  exact (Option.some.inj hparse).symm

end PortForwarding.Address
