import Mathlib.Data.List.Basic
import Mathlib.Data.List.TakeDrop
import PortForwarding.Json.Parser
import PortForwarding.Json.Printer
import PortForwarding.Proofs.Text.Decimal

/-!
# Written JSON reads back

Every value is read back from its text, whatever characters its strings hold
(`parse_text`). The reader works through the characters with fuel. What the
induction carries is that twice the length of a value is fuel enough for it, and
that no value is followed by a character that could belong to a number (`Closes`).
-/

namespace PortForwarding.Json

open Text

variable {fuel : Nat} {rest : List Char}

/-! ## Strings -/

theorem hexValue_hexDigit : ∀ n < 16, hexValue (hexDigit n) = some n := by
  decide

theorem codePiece_control {c : Char} (h : c.toNat < 32) :
    codePiece '0' '0' (hexDigit (c.toNat / 16)) (hexDigit (c.toNat % 16)) =
      some (.char c) := by
  have hzero : hexValue '0' = some 0 := by decide
  have hhigh := hexValue_hexDigit (c.toNat / 16) (by omega)
  have hlow := hexValue_hexDigit (c.toNat % 16) (by omega)
  have hcode : ((0 * 16 + 0) * 16 + c.toNat / 16) * 16 + c.toNat % 16 =
    c.toNat := by omega
  unfold codePiece
  simp only [hzero, hhigh, hlow, Option.bind_eq_bind, Option.bind_some, hcode]
  rw [if_neg (by omega), Char.ofNat_toNat]
  rfl

/-- A letter after a backslash is read as the character it stands for. -/
theorem readPieces_escape {e d : Char} (hu : e ≠ 'u') (hd : escapeChar e = some d)
    (rest : List Char) :
    readPieces ('\\' :: e :: rest) = (readPieces rest).map fun p =>
      (.char d :: p.1, p.2) := by
  rw [readPieces.eq_4 _ _ fun _ _ _ _ _ he _ => hu he, hd]
  cases readPieces rest <;> rfl

theorem readPieces_plain {c : Char} (hquote : c ≠ '"') (hslash : c ≠ '\\')
    (hc : 32 ≤ c.toNat) (rest : List Char) :
    readPieces (c :: rest) = (readPieces rest).map fun p =>
      (.char c :: p.1, p.2) := by
  rw [readPieces.eq_5 _ _ hquote (fun _ _ _ _ _ h _ => hslash h)
    (fun _ _ h _ => hslash h), if_neg (by omega)]
  cases readPieces rest <;> rfl

/-- **A character is read back from what is written for it**, escaped or not. -/
theorem readPieces_writeChar (c : Char) (rest : List Char) :
    readPieces (writeChar c ++ rest) =
      (readPieces rest).map fun p => (.char c :: p.1, p.2) := by
  unfold writeChar
  split
  case h_8 hquote hslash _ _ _ _ _ =>
    split
    · next hc =>
        show readPieces ('\\' :: 'u' :: '0' :: '0' :: hexDigit (c.toNat / 16) ::
          hexDigit (c.toNat % 16) :: rest) = _
        rw [readPieces, codePiece_control hc]
        cases readPieces rest <;> rfl
    · next hc => exact readPieces_plain hquote hslash (by omega) rest
  all_goals exact readPieces_escape (by decide) (by decide) rest

theorem readPieces_writeChars (cs rest : List Char) :
    readPieces (writeChars cs ++ rest) = some (cs.map .char, rest) := by
  induction cs with
  | nil => rfl
  | cons c cs ih =>
      unfold writeChars
      rw [List.append_assoc, readPieces_writeChar, ih]
      rfl

theorem joinPieces_char (cs : List Char) : joinPieces (cs.map .char) = some cs := by
  induction cs with
  | nil => rfl
  | cons c cs ih =>
      rw [List.map_cons, joinPieces, ih]
      rfl

/-- **A string is read back**, from after its opening quote. -/
theorem readText_writeChars (s : String) (rest : List Char) :
    readText (writeChars s.toList ++ rest) = some (some s, rest) := by
  unfold readText
  rw [readPieces_writeChars]
  simp [joinPieces_char]

/-! ## Numbers -/

def Closes (rest : List Char) : Prop :=
  ∀ c ∈ rest.head?, c = ',' ∨ c = ']' ∨ c = '\x7d'

theorem Closes.endsDigits (h : Closes rest) : EndsDigits rest := by
  intro c hc
  rcases h c hc with rfl | rfl | rfl <;> rfl

theorem readFraction_none (h : Closes rest) :
    readFraction rest = some (false, rest) := by
  unfold readFraction
  split
  · have := h '.' rfl
    simp at this
  · rfl

theorem readExponent_none (h : Closes rest) :
    readExponent rest = some (false, rest) := by
  unfold readExponent
  split
  · have := h 'e' rfl
    simp at this
  · have := h 'E' rfl
    simp at this
  · rfl

theorem head_toDigits {n : Nat} (hn : 0 < n) :
    ∀ c ∈ (Nat.toDigits 10 n).head?, c ≠ '0' := by
  induction n using Nat.strongRecOn with
  | ind n ih =>
      by_cases hlt : n < 10
      · rw [Nat.toDigits_of_lt_base hlt]
        have hall : ∀ m < 10, 0 < m → Nat.digitChar m ≠ '0' := by decide
        intro c hc
        obtain rfl : Nat.digitChar n = c := by simpa using hc
        exact hall n hlt hn
      · have hrest := ih (n / 10) (by omega) (by omega)
        rw [Nat.toDigits_of_base_le (by decide) (by omega),
          List.head?_append_of_ne_nil _ Nat.toDigits_ne_nil]
        exact hrest

theorem readWhole_toDigits (n : Nat) (h : Closes rest) :
    readWhole (Nat.toDigits 10 n ++ rest) = some (Nat.toDigits 10 n, rest) := by
  unfold readWhole
  rcases Nat.eq_zero_or_pos n with rfl | hn
  · have hdigits : Nat.toDigits 10 0 = ['0'] := by decide
    rw [hdigits]
    show (if (rest.head?.map Char.isDigit).getD false then none
      else some (['0'], rest)) = _
    rw [if_neg]
    cases hhead : rest.head? with
    | none => simp
    | some c => simp [h.endsDigits c hhead]
  · split
    · next rest' heq =>
        -- only zero begins with a zero
        have hhead := head_toDigits hn '0'
        rw [← List.head?_append_of_ne_nil _ Nat.toDigits_ne_nil, heq] at hhead
        exact absurd rfl (hhead rfl)
    · unfold readDigits
      rw [List.span_eq_takeWhile_dropWhile,
        takeWhile_digits isDigit_of_mem_toDigits h.endsDigits,
        dropWhile_digits isDigit_of_mem_toDigits h.endsDigits]
      have hne : (Nat.toDigits 10 n).isEmpty = false := by
        rw [List.isEmpty_eq_false_iff]
        exact Nat.toDigits_ne_nil
      simp [hne]

theorem readUnsigned_toDigits (n : Nat) (h : Closes rest) :
    readUnsigned (Nat.toDigits 10 n ++ rest) = some (some n, rest) := by
  unfold readUnsigned
  simp [readWhole_toDigits n h, readFraction_none h, readExponent_none h,
    digitsValue_toDigits]

theorem toDigits_eq_cons (n : Nat) :
    ∃ c cs, Nat.toDigits 10 n = c :: cs ∧ c.isDigit = true := by
  obtain ⟨c, cs, h⟩ := List.exists_cons_of_ne_nil (Nat.toDigits_ne_nil (n := n) (b := 10))
  exact ⟨c, cs, h, isDigit_of_mem_toDigits c (h ▸ List.mem_cons_self)⟩

theorem readNumber_writeInt (n : Int) (h : Closes rest) :
    readNumber (writeInt n ++ rest) = some (.int n, rest) := by
  cases n with
  | ofNat n =>
      show readNumber (Nat.toDigits 10 n ++ rest) = _
      obtain ⟨c, cs, hcons, hdigit⟩ := toDigits_eq_cons n
      have hread := readUnsigned_toDigits n h
      unfold readNumber
      split
      · next heq =>
          rw [hcons] at heq
          obtain ⟨rfl, -⟩ := List.cons.inj heq
          exact absurd hdigit (by decide)
      · rw [hread]
        rfl
  | negSucc n =>
      show readNumber ('-' :: (Nat.toDigits 10 (n + 1) ++ rest)) = _
      unfold readNumber
      simp only
      rw [readUnsigned_toDigits (n + 1) h]
      rfl

/-! ## Values -/

def Opens (c : Char) : Prop :=
  c ∈ ['n', 't', 'f', '"', '[', '\x7b', '-'] ∨ c.isDigit = true

/-- **The text of a value begins as a value does.** -/
theorem write_eq_cons (j : Json) : ∃ c cs, write j = c :: cs ∧ Opens c := by
  cases j with
  | null => exact ⟨_, _, rfl, Or.inl (by decide)⟩
  | bool b => cases b <;> exact ⟨_, _, rfl, Or.inl (by decide)⟩
  | int n =>
      cases n with
      | ofNat n =>
          obtain ⟨c, cs, hcons, hdigit⟩ := toDigits_eq_cons n
          exact ⟨c, cs, hcons, Or.inr hdigit⟩
      | negSucc n => exact ⟨_, _, rfl, Or.inl (by decide)⟩
  | str s => exact ⟨_, _, rfl, Or.inl (by decide)⟩
  | arr js => cases js <;> exact ⟨_, _, rfl, Or.inl (by decide)⟩
  | obj ms => cases ms <;> exact ⟨_, _, rfl, Or.inl (by decide)⟩
  | unread => exact ⟨_, _, rfl, Or.inl (by decide)⟩

theorem ne_of_isDigit {c d : Char} (hc : c.isDigit = true)
    (hd : d.isDigit = false) : c ≠ d := by
  rintro rfl
  exact absurd (hc.symm.trans hd) (by decide)

theorem Opens.not_mark {c : Char} (h : Opens c) :
    isSpace c = false ∧ c ≠ ']' ∧ c ≠ '\x7d' := by
  rcases h with hmark | hdigit
  · simp only [List.mem_cons, List.not_mem_nil, or_false] at hmark
    rcases hmark with rfl | rfl | rfl | rfl | rfl | rfl | rfl
    all_goals exact ⟨rfl, by decide, by decide⟩
  · have hne : ∀ d, d.isDigit = false → (c == d) = false :=
      fun d hd => beq_false_of_ne (ne_of_isDigit hdigit hd)
    refine ⟨?_, ne_of_isDigit hdigit rfl, ne_of_isDigit hdigit rfl⟩
    unfold isSpace
    rw [hne ' ' rfl, hne '\n' rfl, hne '\r' rfl, hne '\t' rfl]
    rfl

theorem skipSpace_cons {c : Char} (h : isSpace c = false) (cs : List Char) :
    skipSpace (c :: cs) = c :: cs :=
  List.dropWhile_cons_of_neg (by simp [h])

theorem skipSpace_write (j : Json) (rest : List Char) :
    skipSpace (write j ++ rest) = write j ++ rest := by
  obtain ⟨c, cs, hcons, hopens⟩ := write_eq_cons j
  rw [hcons, List.cons_append, skipSpace_cons hopens.not_mark.1]

theorem length_write_pos (j : Json) : 0 < (write j).length := by
  obtain ⟨c, cs, hcons, -⟩ := write_eq_cons j
  rw [hcons]
  exact Nat.succ_pos _

theorem readValue_number {c : Char} {cs : List Char}
    (h : c.isDigit = true ∨ c = '-') :
    readValue (fuel + 1) (c :: cs) = readNumber (c :: cs) := by
  have hne : ∀ d, d.isDigit = false → d ≠ '-' → c ≠ d := by
    rintro d hd hsign rfl
    rcases h with hdigit | rfl
    · exact ne_of_isDigit hdigit hd rfl
    · exact hsign rfl
  apply readValue.eq_8
  all_goals
    intro cs' heq
    obtain ⟨hopening, -⟩ := List.cons.inj heq
    exact hne _ rfl (by decide) hopening

theorem readValue_writeInt (n : Int) (h : Closes rest) :
    readValue (fuel + 1) (writeInt n ++ rest) = some (.int n, rest) := by
  rw [← readNumber_writeInt n h]
  cases n with
  | ofNat n =>
      obtain ⟨c, cs, hcons, hdigit⟩ := toDigits_eq_cons n
      show readValue (fuel + 1) (Nat.toDigits 10 n ++ rest) = _
      rw [hcons, List.cons_append,
        readValue_number (Or.inl hdigit), ← List.cons_append, ← hcons]
      rfl
  | negSucc n => exact readValue_number (Or.inr rfl)

/-! ## Lists of values -/

theorem closes_nil : Closes [] := by
  intro c hc
  exact absurd hc (by simp)

theorem closes_comma : Closes (',' :: rest) := by
  intro c hc
  exact Or.inl (by simpa using hc.symm)

theorem closes_bracket : Closes (']' :: rest) := by
  intro c hc
  exact Or.inr (Or.inl (by simpa using hc.symm))

theorem closes_brace : Closes ('\x7d' :: rest) := by
  intro c hc
  exact Or.inr (Or.inr (by simpa using hc.symm))

theorem closes_writeItems (js : List Json) : Closes (writeItems js ++ rest) := by
  cases js with
  | nil => exact closes_bracket
  | cons j js => exact closes_comma

theorem closes_writeMembers (ms : List (String × Json)) :
    Closes (writeMembers ms ++ rest) := by
  cases ms with
  | nil => exact closes_brace
  | cons m ms => exact closes_comma

theorem readItems_last {cs : List Char} {item : Json}
    (h : readValue fuel (skipSpace cs) = some (item, ']' :: rest)) :
    readItems (fuel + 1) cs = some ([item], rest) := by
  rw [readItems, h]
  simp [skipSpace_cons (c := ']') rfl]

theorem readItems_more {cs : List Char} {item : Json} {items : List Json}
    {after : List Char}
    (h : readValue fuel (skipSpace cs) = some (item, ',' :: rest))
    (hitems : readItems fuel rest = some (items, after)) :
    readItems (fuel + 1) cs = some (item :: items, after) := by
  rw [readItems, h]
  simp [skipSpace_cons (c := ',') rfl, hitems]

variable {name : String}

theorem readMembers_last {cs : List Char} {value : Json}
    (h : readValue fuel (skipSpace cs) = some (value, '\x7d' :: rest)) :
    readMembers (fuel + 1) (writeText name ++ ':' :: cs) =
      some (some [(name, value)], rest) := by
  have hquote : skipSpace (writeText name ++ ':' :: cs) =
      '"' :: (writeChars name.toList ++ ':' :: cs) := rfl
  rw [readMembers, hquote]
  simp [readText_writeChars, skipSpace_cons (c := ':') rfl, h,
    skipSpace_cons (c := '\x7d') rfl, addMember]

theorem readMembers_more {cs : List Char} {value : Json}
    {members : List (String × Json)} {after : List Char}
    (h : readValue fuel (skipSpace cs) = some (value, ',' :: rest))
    (hmembers : readMembers fuel rest = some (some members, after)) :
    readMembers (fuel + 1) (writeText name ++ ':' :: cs) =
      some (some ((name, value) :: members), after) := by
  have hquote : skipSpace (writeText name ++ ':' :: cs) =
      '"' :: (writeChars name.toList ++ ':' :: cs) := rfl
  rw [readMembers, hquote]
  simp [readText_writeChars, skipSpace_cons (c := ':') rfl, h,
    skipSpace_cons (c := ',') rfl, hmembers, addMember]

theorem length_writeItems_pos (js : List Json) : 0 < (writeItems js).length := by
  cases js <;> exact Nat.succ_pos _

theorem length_writeMembers_pos (ms : List (String × Json)) :
    0 < (writeMembers ms).length := by
  cases ms <;> exact Nat.succ_pos _

theorem readValue_items (j : Json) (rest : List Char) :
    readValue (fuel + 1) ('[' :: (write j ++ rest)) =
      (readItems fuel (write j ++ rest)).map fun p => (.arr p.1, p.2) := by
  rw [readValue, skipSpace_write]
  obtain ⟨c, cs, hcons, hopens⟩ := write_eq_cons j
  split
  · next heq =>
      rw [hcons] at heq
      exact absurd (List.cons.inj heq).1 hopens.not_mark.2.1
  · rfl

/-! ## The whole text -/

mutual

theorem readValue_write (j : Json) {rest : List Char} (hrest : Closes rest)
    {fuel : Nat} (hfuel : 2 * (write j).length ≤ fuel) :
    readValue fuel (write j ++ rest) = some (j, rest) := by
  have hpos := length_write_pos j
  obtain ⟨fuel, rfl⟩ : ∃ f, fuel = f + 1 := ⟨fuel - 1, by omega⟩
  match j with
  | .null => rfl
  | .bool true => rfl
  | .bool false => rfl
  | .int n => exact readValue_writeInt n hrest
  | .str s =>
      show (readText (writeChars s.toList ++ rest)).map _ = _
      rw [readText_writeChars]
      rfl
  | .unread =>
      have hzero : readUnsigned (Nat.toDigits 10 0 ++ rest) = _ :=
        readUnsigned_toDigits 0 hrest
      show (readUnsigned (Nat.toDigits 10 0 ++ rest)).map _ = _
      rw [hzero]
      rfl
  | .arr [] => rfl
  | .arr (j :: js) =>
      simp only [write, List.length_cons, List.length_append] at hfuel
      have hclose := length_writeItems_pos js
      obtain ⟨fuel, rfl⟩ : ∃ f, fuel = f + 1 := ⟨fuel - 1, by omega⟩
      have hitem : readValue fuel (skipSpace (write j ++ (writeItems js ++ rest))) =
          some (j, writeItems js ++ rest) := by
        rw [skipSpace_write]
        exact readValue_write j (closes_writeItems js) (by omega)
      have hitems := readItems_writeItems js (by omega) hitem
      rw [write, List.cons_append, List.append_assoc, readValue_items, hitems]
      rfl
  | .obj [] => rfl
  | .obj ((name, j) :: ms) =>
      simp only [write, List.length_cons, List.length_append] at hfuel
      have hclose := length_writeMembers_pos ms
      obtain ⟨fuel, rfl⟩ : ∃ f, fuel = f + 1 := ⟨fuel - 1, by omega⟩
      have hvalue : readValue fuel (skipSpace (write j ++ (writeMembers ms ++ rest))) =
          some (j, writeMembers ms ++ rest) := by
        rw [skipSpace_write]
        exact readValue_write j (closes_writeMembers ms) (by omega)
      have hmembers : readMembers (fuel + 1) (writeText name ++ ':' :: _) = _ :=
        readMembers_writeMembers ms (by omega) hvalue
      rw [write, List.cons_append, List.append_assoc, List.cons_append, List.append_assoc]
      show (readMembers (fuel + 1) (writeText name ++ ':' :: _)).map _ = _
      rw [hmembers]
      rfl

theorem readItems_writeItems (js : List Json) {item : Json} {cs rest : List Char}
    {fuel : Nat} (hfuel : 2 * (writeItems js).length ≤ fuel)
    (hitem : readValue fuel (skipSpace cs) = some (item, writeItems js ++ rest)) :
    readItems (fuel + 1) cs = some (item :: js, rest) := by
  match js with
  | [] => exact readItems_last hitem
  | j :: js =>
      simp only [writeItems, List.length_cons, List.length_append] at hfuel
      obtain ⟨fuel, rfl⟩ : ∃ f, fuel = f + 1 := ⟨fuel - 1, by omega⟩
      have hvalue : readValue fuel (skipSpace (write j ++ (writeItems js ++ rest))) =
          some (j, writeItems js ++ rest) := by
        rw [skipSpace_write]
        exact readValue_write j (closes_writeItems js) (by omega)
      rw [writeItems, List.cons_append, List.append_assoc] at hitem
      exact readItems_more hitem (readItems_writeItems js (by omega) hvalue)

theorem readMembers_writeMembers (ms : List (String × Json)) {name : String}
    {value : Json} {cs rest : List Char} {fuel : Nat}
    (hfuel : 2 * (writeMembers ms).length ≤ fuel)
    (hvalue : readValue fuel (skipSpace cs) =
      some (value, writeMembers ms ++ rest)) :
    readMembers (fuel + 1) (writeText name ++ ':' :: cs) =
      some (some ((name, value) :: ms), rest) := by
  match ms with
  | [] => exact readMembers_last hvalue
  | (next, j) :: ms =>
      simp only [writeMembers, List.length_cons, List.length_append] at hfuel
      obtain ⟨fuel, rfl⟩ : ∃ f, fuel = f + 1 := ⟨fuel - 1, by omega⟩
      have hnext : readValue fuel (skipSpace (write j ++ (writeMembers ms ++ rest))) =
          some (j, writeMembers ms ++ rest) := by
        rw [skipSpace_write]
        exact readValue_write j (closes_writeMembers ms) (by omega)
      rw [writeMembers, List.cons_append, List.append_assoc, List.cons_append,
        List.append_assoc] at hvalue
      exact readMembers_more hvalue (readMembers_writeMembers ms (by omega) hnext)

end

/-- **A value is read back from its text.** -/
theorem parse_text (j : Json) : parse j.text = some j := by
  unfold parse text
  rw [String.toList_ofList]
  have hread : readValue (2 * (write j).length + 1) (write j ++ []) = some (j, []) :=
    readValue_write j closes_nil (by omega)
  rw [List.append_nil] at hread
  have hskip := skipSpace_write j []
  rw [List.append_nil] at hskip
  simp only [hskip, hread, Option.bind_eq_bind, Option.bind_some]
  rfl

end PortForwarding.Json
