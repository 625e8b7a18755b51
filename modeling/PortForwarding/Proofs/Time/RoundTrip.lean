import PortForwarding.Time.Reader
import PortForwarding.Proofs.Text.Decimal

/-!
# Written times read back

A point in time whose year the reader takes is read back from its text, to the
nanosecond (`parse_text`). A leap second reads back where a leap second can be: in
the last second of a minute.

Times are compared by counting nanoseconds (`instant`): when a clock shows the
later of two times, at least the difference of the counts has passed
(`instant_sub_le_since`).
-/

namespace PortForwarding.Timestamp

open Text

variable {limit width n : Nat} {cs rest : List Char}

/-! ## Digits -/

theorem isBlank_of_isDigit {c : Char} (h : c.isDigit = true) : isBlank c = false := by
  have hrange := toNat_of_isDigit h
  simp only [isBlank, blankRanges, List.any_cons, List.any_nil, Bool.or_false,
    Bool.or_eq_false_iff, Bool.and_eq_false_iff, decide_eq_false_iff_not]
  omega

theorem trimStart_cons {c : Char} (h : isBlank c = false) (cs : List Char) :
    trimStart (c :: cs) = c :: cs :=
  List.dropWhile_cons_of_neg (by simp [h])

theorem trimStart_digits (hne : cs ≠ []) (hcs : ∀ c ∈ cs, c.isDigit = true) :
    trimStart (cs ++ rest) = cs ++ rest := by
  obtain ⟨c, cs, rfl⟩ := List.exists_cons_of_ne_nil hne
  exact trimStart_cons (isBlank_of_isDigit (hcs c List.mem_cons_self)) _

theorem endsDigits_take (h : EndsDigits rest) : EndsDigits (rest.take n) := by
  intro c hc
  cases n with
  | zero => exact absurd hc (by simp)
  | succ n =>
      cases rest with
      | nil => exact absurd hc (by simp)
      | cons d rest => exact h c hc

/-- Digits are taken up to the first other character, if they are no more than
the limit. -/
theorem takeDigits_digits (hcs : ∀ c ∈ cs, c.isDigit = true)
    (hlength : cs.length ≤ limit) (hrest : EndsDigits rest) :
    takeDigits limit (cs ++ rest) = cs := by
  unfold takeDigits
  rw [List.take_append, List.take_of_length_le hlength]
  exact takeWhile_digits hcs (endsDigits_take hrest)

theorem takeDigits_full (hcs : ∀ c ∈ cs, c.isDigit = true)
    (hlength : cs.length = limit) : takeDigits limit (cs ++ rest) = cs := by
  unfold takeDigits
  rw [List.take_append, List.take_of_length_le (Nat.le_of_eq hlength), hlength,
    Nat.sub_self, List.take_zero]
  exact takeWhile_digits hcs endsDigits_nil

theorem readNumber_padded (hlimit : 0 < limit) (hn : n < 10 ^ limit)
    (rest : List Char) :
    readNumber limit (padded limit n ++ rest) = some (n, rest) := by
  have hlength := length_padded hlimit hn
  unfold readNumber
  simp only [trimStart_digits padded_ne_nil isDigit_of_mem_padded,
    takeDigits_full isDigit_of_mem_padded hlength]
  rw [if_neg (by simpa using padded_ne_nil), digitsValue_padded, List.drop_left]

/-! ## The parts of a time -/

theorem readYear_of_isDigit {c : Char} (h : c.isDigit = true) (cs : List Char) :
    readYear (c :: cs) = (readNumber 4 (c :: cs)).map fun p =>
      ((p.1 : Int), p.2) := by
  unfold readYear
  rw [trimStart_cons (isBlank_of_isDigit h)]
  split
  · next heq =>
      obtain ⟨rfl, -⟩ := List.cons.inj heq
      exact absurd h (by decide)
  · next heq =>
      obtain ⟨rfl, -⟩ := List.cons.inj heq
      exact absurd h (by decide)
  · rfl

theorem readYear_plain (hn : n ≤ 9999) (rest : List Char) :
    readYear (padded 4 n ++ rest) = some ((n : Int), rest) := by
  have hne : padded 4 n ≠ [] := padded_ne_nil
  obtain ⟨c, cs, hcons⟩ := List.exists_cons_of_ne_nil hne
  have hdigit : c.isDigit = true := isDigit_of_mem_padded c (hcons ▸ List.mem_cons_self)
  have hread : readNumber 4 (padded 4 n ++ rest) = some (n, rest) :=
    readNumber_padded (by decide) (by omega) rest
  rw [hcons, List.cons_append] at hread ⊢
  rw [readYear_of_isDigit hdigit, hread]
  rfl

theorem readYear_signed (n : Nat) (h : EndsDigits rest) :
    readYear ('+' :: (padded 4 n ++ rest)) = some ((n : Int), rest) ∧
      readYear ('-' :: (padded 4 n ++ rest)) = some (-(n : Int), rest) := by
  have hdigits : (padded 4 n ++ rest).takeWhile Char.isDigit = padded 4 n :=
    takeWhile_digits isDigit_of_mem_padded h
  have hne : (padded 4 n).isEmpty = false := by
    rw [List.isEmpty_eq_false_iff]
    exact padded_ne_nil
  constructor
  all_goals
    unfold readYear
    rw [trimStart_cons (by decide)]
    simp [hdigits, hne, digitsValue_padded]

theorem readYear_yearText (year : Int) (h : EndsDigits rest) :
    readYear ((yearText year).toList ++ rest) = some (year, rest) := by
  unfold yearText
  cases year with
  | ofNat n =>
      by_cases hn : n ≤ 9999
      · simp only [hn, if_true, toList_showPadded]
        exact readYear_plain hn rest
      · simp only [hn, if_false, String.toList_append, toList_showPadded]
        exact (readYear_signed n h).1
  | negSucc n =>
      simp only [String.toList_append, toList_showPadded]
      exact (readYear_signed (n + 1) h).2

theorem readNumber_two (hn : n < 100) (rest : List Char) :
    readNumber 2 (padded 2 n ++ rest) = some (n, rest) :=
  readNumber_padded (by decide) hn rest

theorem readFraction_padded {k : Nat} (hwidth : 0 < width) (hk : width + k = 9)
    (hn : n < 10 ^ width) (h : EndsDigits rest) :
    readFraction ('.' :: (padded width n ++ rest)) = some (n * 10 ^ k, rest) := by
  have hlength := length_padded hwidth hn
  have hdigits : takeDigits 9 (padded width n ++ rest) = padded width n :=
    takeDigits_digits isDigit_of_mem_padded (by omega) h
  have hdrop : (padded width n ++ rest).dropWhile Char.isDigit = rest :=
    dropWhile_digits isDigit_of_mem_padded h
  have hrest : 9 - width = k := by omega
  unfold readFraction
  simp only [hdigits, hdrop, digitsValue_padded, hlength, hrest]
  rw [if_neg (by simpa using padded_ne_nil)]
  rfl

theorem readFraction_fractionText {nano : Nat} (hnano : nano < nanosPerSecond) :
    readFraction ((fractionText nano).toList ++ ['Z']) = some (nano, ['Z']) := by
  have hend : EndsDigits ['Z'] := endsDigits_cons rfl
  unfold nanosPerSecond at hnano
  unfold fractionText
  split
  · next hzero => rw [hzero]; rfl
  · split
    · next hmilli =>
        have hvalue : nano / 1000000 * 10 ^ 6 = nano := by omega
        rw [String.toList_append, toList_showPadded]
        refine (readFraction_padded (k := 6) (by decide) (by decide)
          (by omega) hend).trans ?_
        rw [hvalue]
    · split
      · next hmicro =>
          have hvalue : nano / 1000 * 10 ^ 3 = nano := by omega
          rw [String.toList_append, toList_showPadded]
          refine (readFraction_padded (k := 3) (by decide) (by decide)
            (by omega) hend).trans ?_
          rw [hvalue]
      · rw [String.toList_append, toList_showPadded]
        refine (readFraction_padded (k := 0) (by decide) (by decide)
          (by omega) hend).trans ?_
        rw [Nat.pow_zero, Nat.mul_one]

theorem readMark_cons {c : Char} (h : isBlank c = false) (cs : List Char) :
    readMark c (c :: cs) = some cs := by
  unfold readMark
  rw [trimStart_cons h]
  simp

/-! ## The whole text -/

/-- A time that a clock can show and a reader takes: its year is in range, and a
leap second is the last of its minute. -/
def Readable (t : Timestamp) : Prop :=
  yearInRange t.date.year = true ∧ (t.nano < nanosPerSecond ∨ t.second % 60 = 59)

theorem day_le_31 (d : Date) : d.day ≤ 31 := by
  refine Nat.le_trans d.day_le.2 ?_
  unfold daysInMonth
  split
  case h_12 => split <;> decide
  all_goals decide

theorem date_of? (d : Date) : Date.of? d.year d.month d.day = some d := by
  unfold Date.of?
  rw [dif_pos d.month_le, dif_pos d.day_le]

theorem ofLocal?_zero {t : Timestamp} (h : yearInRange t.date.year = true) :
    ofLocal? t.date t.second t.nano 0 = some t := by
  have hsecond := t.second_lt
  unfold secondsPerDay at hsecond
  have hlow : ¬((t.second : Int) - 0 < 0) := by omega
  have hhigh : ¬((t.second : Int) - 0 ≥ secondsPerDay) := by unfold secondsPerDay; omega
  have hrest : (((t.second : Int) - 0) % secondsPerDay).toNat = t.second := by
    unfold secondsPerDay
    omega
  unfold ofLocal?
  simp only [hlow, hhigh, if_false, hrest]
  rw [dif_pos ⟨t.second_lt, t.nano_lt, h⟩]

/-- **A time is read back from its text.** -/
theorem parse_text {t : Timestamp} (h : t.Readable) : parse t.text = some t := by
  obtain ⟨hyear, hleap⟩ := h
  have hsecond := t.second_lt
  have hnano := t.nano_lt
  have hmonth := t.date.month_le
  have hday := day_le_31 t.date
  unfold secondsPerDay at hsecond
  have htext : t.text.toList = (yearText t.date.year).toList ++ '-' ::
      (padded 2 t.date.month ++
        '-' :: (padded 2 t.date.day ++ 'T' :: (padded 2 (t.second / 3600) ++
        ':' :: (padded 2 (t.second / 60 % 60) ++
        ':' :: (padded 2 (t.second % 60 + t.nano / nanosPerSecond) ++
        ((fractionText (t.nano % nanosPerSecond)).toList ++ ['Z'])))))) := by
    simp [text, toList_showPadded]
  -- the second that a leap second adds to its minute is what the reader takes off
  -- again
  have hleaps : t.nano / nanosPerSecond ≤ 1 ∧
      (t.second % 60 + t.nano / nanosPerSecond) / 60 = t.nano / nanosPerSecond := by
    unfold nanosPerSecond at *
    omega
  have hdate : t.second / 3600 * 3600 + t.second / 60 % 60 * 60 +
      (t.second % 60 + t.nano / nanosPerSecond - t.nano / nanosPerSecond) =
        t.second := by omega
  have hparts : t.nano % nanosPerSecond +
      t.nano / nanosPerSecond * nanosPerSecond = t.nano :=
    Nat.mod_add_div' _ _
  have hdash : ∀ cs, readMark '-' ('-' :: cs) = some cs := readMark_cons (by decide)
  have hcolon : ∀ cs, readMark ':' (':' :: cs) = some cs := readMark_cons (by decide)
  unfold parse
  rw [htext]
  refine Option.bind_eq_some_iff.mpr ⟨_, readYear_yearText _ (endsDigits_cons rfl), ?_⟩
  refine Option.bind_eq_some_iff.mpr ⟨_, hdash _, ?_⟩
  refine Option.bind_eq_some_iff.mpr ⟨_, readNumber_two (by omega) _, ?_⟩
  refine Option.bind_eq_some_iff.mpr ⟨_, hdash _, ?_⟩
  refine Option.bind_eq_some_iff.mpr ⟨_, readNumber_two (by omega) _, ?_⟩
  refine Option.bind_eq_some_iff.mpr ⟨_, (rfl : readBetween ('T' :: _) = some _), ?_⟩
  refine Option.bind_eq_some_iff.mpr ⟨_, readNumber_two (by omega) _, ?_⟩
  refine Option.bind_eq_some_iff.mpr ⟨_, hcolon _, ?_⟩
  refine Option.bind_eq_some_iff.mpr ⟨_, readNumber_two (by omega) _, ?_⟩
  refine Option.bind_eq_some_iff.mpr ⟨_, hcolon _, ?_⟩
  refine Option.bind_eq_some_iff.mpr ⟨_, readNumber_two (by omega) _, ?_⟩
  refine Option.bind_eq_some_iff.mpr ⟨_,
    readFraction_fractionText (Nat.mod_lt _ (by decide)), ?_⟩
  refine Option.bind_eq_some_iff.mpr ⟨_, (rfl : readOffset ['Z'] = some (0, [])), ?_⟩
  dsimp only
  rw [if_pos ⟨rfl, hyear, by omega, by omega, by omega⟩, date_of?, hleaps.2,
    hdate, hparts]
  exact ofLocal?_zero hyear

/-! ## Every time that is read -/

theorem readFraction_lt {nano : Nat} (h : readFraction cs = some (nano, rest)) :
    nano < nanosPerSecond := by
  unfold readFraction at h
  split at h
  · next cs' =>
      generalize hdigits : takeDigits 9 cs' = digits at h
      have hall : ∀ c ∈ digits, c.isDigit = true := by
        intro c hc
        rw [← hdigits] at hc
        exact List.all_eq_true.mp List.all_takeWhile c hc
      have hlength : digits.length ≤ 9 := by
        rw [← hdigits]
        exact Nat.le_trans (List.takeWhile_sublist _).length_le
          (List.length_take_le 9 cs')
      have hvalue : digitsValue 0 digits < (0 + 1) * 10 ^ digits.length :=
        digitsValue_lt hall
      dsimp only at h
      split at h
      · exact absurd h (by simp)
      · obtain ⟨rfl, -⟩ := Prod.mk.inj (Option.some.inj h)
        calc digitsValue 0 digits * 10 ^ (9 - digits.length)
            < (0 + 1) * 10 ^ digits.length * 10 ^ (9 - digits.length) :=
              Nat.mul_lt_mul_of_pos_right hvalue (Nat.pow_pos (by decide))
          _ = 10 ^ (digits.length + (9 - digits.length)) := by
            rw [Nat.zero_add, Nat.one_mul, Nat.pow_add]
          _ = nanosPerSecond := by rw [Nat.add_sub_cancel' hlength]; rfl
  · obtain ⟨rfl, -⟩ := Prod.mk.inj (Option.some.inj h)
    decide

theorem readOffsetSize_minutes {size : Nat}
    (h : readOffsetSize cs = some (size, rest)) : size % 60 = 0 := by
  unfold readOffsetSize at h
  simp only [Option.bind_eq_bind, Option.bind_eq_some_iff] at h
  obtain ⟨hours, -, minutes, -, h⟩ := h
  split at h
  · obtain ⟨rfl, -⟩ := Prod.mk.inj (Option.some.inj h)
    omega
  · exact absurd h (by simp)

theorem readOffset_minutes {offset : Int} (h : readOffset cs = some (offset, rest)) :
    offset % 60 = 0 := by
  have hsize : ∀ {cs : List Char} {f : Nat → Int}, (∀ n, n % 60 = 0 → f n % 60 = 0) →
      (readOffsetSize cs).map (fun p => (f p.1, p.2)) = some (offset, rest) →
          offset % 60 = 0 := by
    intro cs f hf hmap
    obtain ⟨⟨n, rest'⟩, hread, heq⟩ := Option.map_eq_some_iff.mp hmap
    obtain ⟨rfl, -⟩ := Prod.mk.inj heq
    exact hf n (readOffsetSize_minutes hread)
  unfold readOffset at h
  dsimp only at h
  split at h
  · obtain ⟨rfl, -⟩ := Prod.mk.inj (Option.some.inj h)
    rfl
  · split at h
    · obtain ⟨rfl, -⟩ := Prod.mk.inj (Option.some.inj h)
      rfl
    · obtain ⟨rfl, -⟩ := Prod.mk.inj (Option.some.inj h)
      rfl
    · exact hsize (f := fun n => (n : Int)) (fun n hn => by omega) h
    · exact hsize (f := fun n => -(n : Int)) (fun n hn => by omega) h
    · exact hsize (f := fun n => -(n : Int)) (fun n hn => by omega) h
    · exact absurd h (by simp)

theorem ofLocal?_eq_some {date : Date} {second nano : Nat} {offset : Int}
    {t : Timestamp} (h : ofLocal? date second nano offset = some t) :
    yearInRange t.date.year = true ∧ t.nano = nano ∧
      (t.second : Int) = (second - offset) % secondsPerDay := by
  unfold ofLocal? at h
  dsimp only at h
  obtain ⟨hvalid, h⟩ := Option.dite_none_right_eq_some.mp h
  obtain rfl := Option.some.inj h
  refine ⟨hvalid.2.2, rfl, ?_⟩
  exact Int.toNat_of_nonneg (Int.emod_nonneg _ (by decide))

/-- **Whatever is read as a time can be written**, and read again. -/
theorem readable_of_parse {s : String} {t : Timestamp} (h : parse s = some t) :
    t.Readable := by
  unfold parse at h
  obtain ⟨year, -, h⟩ := Option.bind_eq_some_iff.mp h
  obtain ⟨_, -, h⟩ := Option.bind_eq_some_iff.mp h
  obtain ⟨month, -, h⟩ := Option.bind_eq_some_iff.mp h
  obtain ⟨_, -, h⟩ := Option.bind_eq_some_iff.mp h
  obtain ⟨day, -, h⟩ := Option.bind_eq_some_iff.mp h
  obtain ⟨_, -, h⟩ := Option.bind_eq_some_iff.mp h
  obtain ⟨hour, -, h⟩ := Option.bind_eq_some_iff.mp h
  obtain ⟨_, -, h⟩ := Option.bind_eq_some_iff.mp h
  obtain ⟨minute, -, h⟩ := Option.bind_eq_some_iff.mp h
  obtain ⟨_, -, h⟩ := Option.bind_eq_some_iff.mp h
  obtain ⟨second, -, h⟩ := Option.bind_eq_some_iff.mp h
  obtain ⟨fraction, hfraction, h⟩ := Option.bind_eq_some_iff.mp h
  obtain ⟨offset, hoffset, h⟩ := Option.bind_eq_some_iff.mp h
  have hnano := readFraction_lt hfraction
  have hminutes := readOffset_minutes hoffset
  obtain ⟨hrange, h⟩ := Option.ite_none_right_eq_some.mp h
  obtain ⟨date, -, h⟩ := Option.bind_eq_some_iff.mp h
  obtain ⟨hyear, hfraction, hsecond⟩ := ofLocal?_eq_some h
  refine ⟨hyear, ?_⟩
  unfold nanosPerSecond secondsPerDay at *
  by_cases hleap : second.1 = 60
  · -- a second too many is the last of its minute, in any time zone
    rw [hleap] at hsecond
    exact Or.inr (by omega)
  · exact Or.inl (by omega)

/-! ## Counting nanoseconds -/

/-- What a clock shows: a time within range, and never a leap second. -/
def Reading (t : Timestamp) : Prop :=
  yearInRange t.date.year = true ∧ t.nano < nanosPerSecond

theorem Reading.readable {t : Timestamp} (h : t.Reading) : t.Readable :=
  ⟨h.1, Or.inl h.2⟩

def instant (t : Timestamp) : Int :=
  (t.date.number * secondsPerDay + t.second) * nanosPerSecond + t.nano

/-- **At least the difference of the counts has passed** when a clock shows the
later time. It is more where the earlier time is within a leap second. -/
theorem instant_sub_le_since {later earlier : Timestamp} (hlater : later.Reading) :
    later.instant - earlier.instant ≤ later.since earlier := by
  have hleap : 0 ≤ leapBetween later earlier := by
    unfold leapBetween
    rw [if_neg (Nat.not_le.mpr hlater.2)]
    split
    · split <;> decide
    · split <;> decide
  unfold since instant
  simp only
  generalize later.date.number = d
  generalize earlier.date.number = e
  unfold secondsPerDay nanosPerSecond
  omega

end PortForwarding.Timestamp
