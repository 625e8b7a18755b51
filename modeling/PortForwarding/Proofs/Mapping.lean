import Mathlib.Data.List.Forall2
import PortForwarding.Mapping
import PortForwarding.Proofs.Text.Blank
import PortForwarding.Proofs.Text.Decimal

/-!
# The grammar of port mappings

An annotation is read exactly if every piece of it between commas is a token once
the blanks around it are gone, and then as the mappings that its tokens spell
(`Spells`). Otherwise the first piece that is none is reported, with what is wrong
about it (`Refused`).

`PortName` and `Formed` are the grammar of one token. Hyphens, colons and digits
of any number are told apart by it and not by the reader.
-/

namespace PortForwarding.Mapping

/-! ## The grammar of a token -/

def Alnum (c : Char) : Prop :=
  ('a' ≤ c ∧ c ≤ 'z') ∨ ('0' ≤ c ∧ c ≤ '9')

/-- The name of a port, with hyphens inside at most. -/
inductive PortName : List Char → Prop
  | single (c : Char) (hc : Alnum c) : PortName [c]
  | long (first : Char) (inner : List Char) (last : Char) (hfirst : Alnum first)
      (hinner : ∀ c ∈ inner, Alnum c ∨ c = '-') (hlast : Alnum last) :
      PortName (first :: (inner ++ [last]))

/-- **The form of a token**: a name, or a name, a colon and digits. -/
inductive Formed : List Char → String → Option (List Char) → Prop
  | bare (name : List Char) (hname : PortName name) :
      Formed name (String.ofList name) none
  | explicit (name digits : List Char) (hname : PortName name) (hsome : digits ≠ [])
      (hdigits : ∀ c ∈ digits, '0' ≤ c ∧ c ≤ '9') :
      Formed (name ++ ':' :: digits) (String.ofList name) (some digits)

/-- The number that digits write, with any number of zeros in front. -/
def value (digits : List Char) : Nat :=
  Nat.ofDigitChars 10 digits 0

def InRange (digits : List Char) : Prop :=
  1 ≤ value digits ∧ value digits ≤ 65535

instance : DecidablePred InRange :=
  fun digits => inferInstanceAs (Decidable (1 ≤ value digits ∧ value digits ≤ 65535))

/-- **The token spells the mapping.** -/
inductive Spells (token : List Char) : PortMapping → Prop
  | bare (port : String) (hform : Formed token port none) : Spells token ⟨port, none⟩
  | explicit (port : String) (digits : List Char) (external : UInt16)
      (hform : Formed token port (some digits)) (hrange : InRange digits)
      (hvalue : external.toNat = value digits) : Spells token ⟨port, some external⟩

/-- **The token spells nothing**: it has not the form of one, or a value that no
port has. -/
inductive Misspelt (token : List Char) : MappingError → Prop
  | malformed (hform : ∀ port digits, ¬Formed token port digits) :
      Misspelt token (.malformed (String.ofList token))
  | outOfRange (port : String) (digits : List Char)
      (hform : Formed token port (some digits))
      (hrange : ¬InRange digits) :
        Misspelt token (.outOfRange port (String.ofList digits))

variable {c : Char} {cs name digits token rest : List Char} {port : String}
  {m : PortMapping} {e : MappingError}

/-! ## Characters and names -/

theorem isAlnum_iff : isAlnum c = true ↔ Alnum c := by
  unfold isAlnum Alnum
  rw [Bool.or_eq_true, Text.isLower_iff, Text.isDigit_iff]

theorem all_isDigit_iff :
    digits.all Char.isDigit = true ↔ ∀ c ∈ digits, '0' ≤ c ∧ c ≤ '9' := by
  rw [List.all_eq_true]
  exact forall₂_congr fun _ _ => Text.isDigit_iff

theorem isPortName_of_portName (h : PortName name) : isPortName name = true := by
  cases h with
  | single c hc => simp [isPortName, isAlnum_iff.mpr hc]
  | long first inner last hfirst hinner hlast =>
      have hall : inner.all (fun c => isAlnum c || c == '-') = true := by
        rw [List.all_eq_true]
        intro c hc
        rcases hinner c hc with halnum | rfl
        · rw [isAlnum_iff.mpr halnum, Bool.true_or]
        · rfl
      simp [isPortName, hall, isAlnum_iff.mpr hfirst, isAlnum_iff.mpr hlast,
        List.getLast?_cons]

theorem portName_of_isPortName (h : isPortName name = true) : PortName name := by
  unfold isPortName at h
  obtain ⟨⟨hall, hhead⟩, hlast⟩ := by simpa only [Bool.and_eq_true] using h
  -- by the first character and, if there are more, the last
  cases name with
  | nil => exact Bool.noConfusion hhead
  | cons first tail =>
      rcases List.eq_nil_or_concat tail with rfl | ⟨inner, last, rfl⟩
      · exact .single first (isAlnum_iff.mp hhead)
      · rw [List.concat_eq_append] at hall hlast ⊢
        refine .long first inner last (isAlnum_iff.mp hhead) (fun c hc => ?_) ?_
        · have hchar := List.all_eq_true.mp hall c (by simp [hc])
          rw [Bool.or_eq_true, isAlnum_iff, beq_iff_eq] at hchar
          exact hchar
        · rw [← List.cons_append, List.getLast?_concat] at hlast
          exact isAlnum_iff.mp hlast

theorem isPortName_iff : isPortName name = true ↔ PortName name :=
  ⟨portName_of_isPortName, isPortName_of_portName⟩

theorem Alnum.visible (h : Alnum c) : '-' ≤ c ∧ c ≤ 'z' ∧ c ≠ ':' ∧ c ≠ ',' := by
  simp only [Alnum, Char.le_def, UInt32.le_iff_toNat_le, ne_eq, Char.ext_iff,
    ← UInt32.toNat_inj] at h ⊢
  simp at h ⊢
  omega

theorem PortName.alnum_or_hyphen (h : PortName name) :
    ∀ c ∈ name, Alnum c ∨ c = '-' := by
  cases h with
  | single c hc => exact List.forall_mem_singleton.mpr (Or.inl hc)
  | long first inner last hfirst hinner hlast =>
      rw [List.forall_mem_cons, List.forall_mem_append, List.forall_mem_singleton]
      exact ⟨Or.inl hfirst, hinner, Or.inl hlast⟩

theorem PortName.colon_notMem (h : PortName name) : ':' ∉ name := by
  intro hmem
  rcases h.alnum_or_hyphen ':' hmem with halnum | hhyphen
  · exact halnum.visible.2.2.1 rfl
  · exact absurd hhyphen (by decide)

/-! ## Reading a token -/

theorem splitAtColon_of_notMem (h : ':' ∉ cs) : splitAtColon cs = (cs, none) := by
  induction cs with
  | nil => rfl
  | cons c cs ih =>
      obtain ⟨hc, hcs⟩ := by simpa [eq_comm] using h
      simp [splitAtColon, hc, ih hcs]

theorem splitAtColon_append (h : ':' ∉ name) :
    splitAtColon (name ++ ':' :: rest) = (name, some rest) := by
  induction name with
  | nil => rfl
  | cons c name ih =>
      obtain ⟨hc, hname⟩ := by simpa [eq_comm] using h
      simp [splitAtColon, hc, ih hname]

theorem eq_of_splitAtColon {rest : Option (List Char)}
    (h : splitAtColon cs = (name, rest)) :
    cs = name ++ (rest.map (':' :: ·)).getD [] := by
  induction cs generalizing name with
  | nil =>
      obtain ⟨rfl, rfl⟩ := Prod.mk.inj h
      rfl
  | cons c cs ih =>
      unfold splitAtColon at h
      split at h
      · next hc =>
          obtain ⟨rfl, rfl⟩ := Prod.mk.inj h
          rw [hc]
          rfl
      · obtain ⟨rfl, rfl⟩ := Prod.mk.inj h
        rw [List.cons_append, ← ih rfl]

theorem externalPort?_eq (hsome : digits ≠ [])
    (hdigits : digits.all Char.isDigit = true) :
    externalPort? digits =
      if InRange digits then some (UInt16.ofNat (value digits)) else none := by
  have hvalue : Text.digitsValue 0 digits = value digits := Text.digitsValue_eq 0 digits
  unfold externalPort? Text.readBelow Text.readNat
  rw [if_pos ⟨hsome, hdigits⟩, hvalue]
  by_cases hhigh : value digits < 65536
  · by_cases hlow : 1 ≤ value digits
    · have hrange : InRange digits := ⟨hlow, Nat.le_of_lt_succ hhigh⟩
      simp [Option.filter, hhigh, hlow, hrange]
    · have hrange : ¬InRange digits := fun h => hlow h.1
      simp [Option.filter, hhigh, hlow, hrange]
  · have hrange : ¬InRange digits := fun h => hhigh (Nat.lt_succ_of_le h.2)
    simp [Option.filter, hhigh, hrange]

theorem parseToken_bare (hname : PortName name) :
    parseToken name = .ok ⟨String.ofList name, none⟩ := by
  simp [parseToken, splitAtColon_of_notMem hname.colon_notMem, isPortName_iff.mpr hname]

theorem parseToken_explicit (hname : PortName name) (hsome : digits ≠ [])
    (hdigits : ∀ c ∈ digits, '0' ≤ c ∧ c ≤ '9') :
    parseToken (name ++ ':' :: digits) =
      if InRange digits then
        .ok ⟨String.ofList name, some (UInt16.ofNat (value digits))⟩
      else .error (.outOfRange (String.ofList name) (String.ofList digits)) := by
  have hall := all_isDigit_iff.mpr hdigits
  unfold parseToken
  rw [splitAtColon_append hname.colon_notMem]
  simp only [isPortName_iff.mpr hname, hall, List.isEmpty_eq_false_iff.mpr hsome,
    externalPort?_eq hsome hall, Bool.not_true, Bool.or_false, Bool.false_eq_true,
    if_false]
  by_cases hrange : InRange digits
  · rw [if_pos hrange, if_pos hrange]
  · rw [if_neg hrange, if_neg hrange]

theorem parseToken_malformed (h : ∀ port digits, ¬Formed token port digits) :
    parseToken token = .error (.malformed (String.ofList token)) := by
  unfold parseToken
  cases hsplit : splitAtColon token with
  | mk name rest =>
      have htoken := eq_of_splitAtColon hsplit
      dsimp only
      split
      · rfl
      · next hname =>
          have hname : PortName name := isPortName_iff.mp (by simpa using hname)
          cases rest with
          | none =>
              obtain rfl : token = name := by simpa using htoken
              exact absurd (.bare token hname) (h _ _)
          | some digits =>
              obtain rfl : token = name ++ ':' :: digits := htoken
              dsimp only
              split
              · rfl
              · next hdigits =>
                  obtain ⟨hsome, hall⟩ :
                      digits ≠ [] ∧ digits.all Char.isDigit = true := by
                    simpa using hdigits
                  exact absurd (.explicit name digits hname hsome
                    (all_isDigit_iff.mp hall)) (h _ _)

theorem parseToken_of_spells (h : Spells token m) : parseToken token = .ok m := by
  cases h with
  | bare port hform =>
      cases hform with
      | bare _ hname => exact parseToken_bare hname
  | explicit port digits external hform hrange hvalue =>
      cases hform with
      | explicit name _ hname hsome hdigits =>
          rw [parseToken_explicit hname hsome hdigits, if_pos hrange, ← hvalue,
            UInt16.ofNat_toNat]

theorem parseToken_of_misspelt (h : Misspelt token e) :
    parseToken token = .error e := by
  cases h with
  | malformed hform => exact parseToken_malformed hform
  | outOfRange port digits hform hrange =>
      cases hform with
      | explicit name _ hname hsome hdigits =>
          rw [parseToken_explicit hname hsome hdigits, if_neg hrange]

theorem spells_or_misspelt (token : List Char) :
    (∃ m, Spells token m) ∨ ∃ e, Misspelt token e := by
  by_cases hform : ∃ port digits, Formed token port digits
  · obtain ⟨port, digits, hform⟩ := hform
    cases digits with
    | none => exact Or.inl ⟨_, .bare port hform⟩
    | some digits =>
        by_cases hrange : InRange digits
        · exact Or.inl ⟨_,
            .explicit port digits (UInt16.ofNat (value digits)) hform hrange
            (UInt16.toNat_ofNat_of_lt' (Nat.lt_succ_of_le hrange.2))⟩
        · exact Or.inr ⟨_, .outOfRange port digits hform hrange⟩
  · exact Or.inr ⟨_, .malformed fun port digits h => hform ⟨port, digits, h⟩⟩

theorem parseToken_eq_ok_iff : parseToken token = .ok m ↔ Spells token m := by
  refine ⟨fun h => ?_, parseToken_of_spells⟩
  rcases spells_or_misspelt token with ⟨m', hspells⟩ | ⟨e, hmisspelt⟩
  · obtain rfl := Except.ok.inj (h.symm.trans (parseToken_of_spells hspells))
    exact hspells
  · exact absurd (h.symm.trans (parseToken_of_misspelt hmisspelt)) (by simp)

theorem parseToken_eq_error_iff : parseToken token = .error e ↔ Misspelt token e := by
  refine ⟨fun h => ?_, parseToken_of_misspelt⟩
  rcases spells_or_misspelt token with ⟨m, hspells⟩ | ⟨e', hmisspelt⟩
  · exact absurd (h.symm.trans (parseToken_of_spells hspells)) (by simp)
  · obtain rfl := Except.error.inj (h.symm.trans (parseToken_of_misspelt hmisspelt))
    exact hmisspelt

/-! ## The grammar of an annotation -/

/-- **The tokens of a text**: its pieces between commas, without the blanks
around them. -/
def tokens (text : String) : List (List Char) :=
  (text.toList.splitOn ',').map Text.trim

def Blank (cs : List Char) : Prop :=
  ∀ c ∈ cs, Text.isBlank c = true

/-- **A token is reported**: for what is wrong about it, or as the whole text
where this is nothing but blanks. -/
inductive Refused (text : String) (token : List Char) : MappingError → Prop
  | misspelt (e : MappingError) (hsome : ¬Blank text.toList) (h : Misspelt token e) :
      Refused text token e
  | empty (hblank : Blank text.toList) : Refused text token (.empty text)

/-- A mapping that can be asked for: the port of a name, if any is given, is
not zero. -/
structure Valid (m : PortMapping) : Prop where
  name : PortName m.port.toList
  external : m.external ≠ some 0

/-- A mapping with the text before and after it. -/
structure Placed where
  before : List Char
  mapping : PortMapping
  after : List Char

namespace Placed

/-- The mapping can be asked for, and there are only blanks around it. -/
structure Fits (p : Placed) : Prop where
  before : Blank p.before
  valid : Valid p.mapping
  after : Blank p.after

def text (p : Placed) : List Char :=
  p.before ++ (p.mapping.text.toList ++ p.after)

end Placed

def write (placed : List Placed) : String :=
  String.ofList ([','].intercalate (placed.map Placed.text))

/-! ## Reading one token after another -/

section

variable {α β ε : Type} {f : α → Except ε β} {xs : List α}

theorem mapM_eq_ok_iff {ys : List β} :
    xs.mapM f = .ok ys ↔ List.Forall₂ (fun x y => f x = .ok y) xs ys := by
  induction xs generalizing ys with
  | nil => cases ys <;> simp [pure, Except.pure]
  | cons x xs ih =>
      rw [List.mapM_cons]
      cases hx : f x with
      | error e => cases ys <;> simp [bind, Except.bind, hx]
      | ok y =>
          cases hxs : xs.mapM f with
          | error e => cases ys <;> simp [bind, Except.bind, ← ih, hxs, hx]
          | ok later =>
              cases ys <;> simp [bind, Except.bind, pure, Except.pure, ← ih, hxs,
                hx]

theorem mapM_eq_error_iff {e : ε} :
    xs.mapM f = .error e ↔ ∃ good bad later, xs = good ++ bad :: later ∧
      (∀ x ∈ good, ∃ y, f x = .ok y) ∧ f bad = .error e := by
  constructor
  · intro h
    induction xs with
    | nil => exact absurd h (by simp [pure, Except.pure])
    | cons x xs ih =>
        rw [List.mapM_cons] at h
        cases hx : f x with
        | error e' =>
            obtain rfl : e' = e := by simpa [bind, Except.bind, hx] using h
            exact ⟨[], x, xs, rfl, List.forall_mem_nil _, hx⟩
        | ok y =>
            have hxs : xs.mapM f = .error e := by
              cases hxs : xs.mapM f with
              | ok later => simp [bind, Except.bind, pure, Except.pure, hx, hxs] at h
              | error e' => simpa [bind, Except.bind, hx, hxs] using h
            obtain ⟨good, bad, later, rfl, hgood, hbad⟩ := ih hxs
            exact ⟨x :: good, bad, later, rfl,
              List.forall_mem_cons.mpr ⟨⟨y, hx⟩, hgood⟩, hbad⟩
  · rintro ⟨good, bad, later, rfl, hgood, hbad⟩
    induction good with
    | nil => simp [List.mapM_cons, bind, Except.bind, hbad]
    | cons x good ih =>
        obtain ⟨⟨y, hx⟩, hgood⟩ := List.forall_mem_cons.mp hgood
        simp [List.mapM_cons, bind, Except.bind, hx, ih hgood]

end

theorem exists_forall₂_iff {α β : Type} {R : α → β → Prop} {xs : List α} :
    (∃ ys, List.Forall₂ R xs ys) ↔ ∀ x ∈ xs, ∃ y, R x y := by
  induction xs with
  | nil => exact iff_of_true ⟨[], .nil⟩ (List.forall_mem_nil _)
  | cons x xs ih =>
      rw [List.forall_mem_cons, ← ih]
      constructor
      · rintro ⟨_, _ | ⟨hx, hxs⟩⟩
        exact ⟨⟨_, hx⟩, ⟨_, hxs⟩⟩
      · rintro ⟨⟨y, hx⟩, ⟨ys, hxs⟩⟩
        exact ⟨y :: ys, .cons hx hxs⟩

/-! ## Reading an annotation -/

theorem splitAtCommas_eq (cs : List Char) : splitAtCommas cs = cs.splitOn ',' := by
  rw [List.splitOn_eq_splitOnP]
  induction cs with
  | nil => rfl
  | cons c cs ih =>
      rw [List.splitOnP_cons_eq_if_modifyHead, ← ih, splitAtCommas]
      by_cases hc : c = ','
      · simp [hc]
      · have hsome : splitAtCommas cs ≠ [] := ih ▸ List.splitOnP_ne_nil _ _
        simp only [hc, if_false, beq_iff_eq]
        cases hcs : splitAtCommas cs with
        | nil => exact absurd hcs hsome
        | cons piece pieces => rfl

theorem parse_of_blank {text : String} (h : Blank text.toList) :
    parse text = .error (.empty text) := by
  unfold parse
  rw [Text.trim_eq_nil_iff.mpr h]
  rfl

theorem parse_of_not_blank {text : String} (h : ¬Blank text.toList) :
    parse text = (tokens text).mapM parseToken := by
  have hsome : (Text.trim text.toList).isEmpty = false :=
    List.isEmpty_eq_false_iff.mpr fun hnone => h (Text.trim_eq_nil_iff.mp hnone)
  unfold parse tokens
  rw [hsome, splitAtCommas_eq, List.mapM_map]
  rfl

theorem tokens_of_blank {text : String} (h : Blank text.toList) :
    tokens text = [[]] := by
  have hcomma : ∀ piece ∈ [text.toList], ',' ∉ piece := by
    rw [List.forall_mem_singleton]
    exact fun hmem => absurd (h ',' hmem) (by decide)
  have hone := List.splitOn_intercalate ',' hcomma (by simp)
  rw [List.intercalate_singleton] at hone
  unfold tokens
  rw [hone, List.map_singleton, Text.trim_eq_nil_iff.mpr h]

theorem not_formed_nil (port : String) (digits : Option (List Char)) :
    ¬Formed [] port digits := by
  intro h
  generalize htoken : ([] : List Char) = token at h
  cases h with
  | bare _ hname => cases hname <;> simp at htoken
  | explicit => simp at htoken

theorem not_spells_nil (m : PortMapping) : ¬Spells [] m := by
  intro h
  cases h with
  | bare port hform => exact not_formed_nil port _ hform
  | explicit port digits external hform => exact not_formed_nil port _ hform

/-- **An annotation is read as what its tokens spell.** -/
theorem parse_eq_ok_iff {text : String} {ms : List PortMapping} :
    parse text = .ok ms ↔ List.Forall₂ Spells (tokens text) ms := by
  by_cases hblank : Blank text.toList
  · rw [parse_of_blank hblank, tokens_of_blank hblank]
    refine iff_of_false (by simp) fun h => ?_
    cases h with
    | cons hspells _ => exact not_spells_nil _ hspells
  · rw [parse_of_not_blank hblank, mapM_eq_ok_iff]
    simp only [parseToken_eq_ok_iff]

/-- **What is reported of an annotation is its first token that spells nothing.** -/
theorem parse_eq_error_iff {text : String} :
    parse text = .error e ↔ ∃ good bad later, tokens text = good ++ bad :: later ∧
      (∀ token ∈ good, ∃ m, Spells token m) ∧ Refused text bad e := by
  by_cases hblank : Blank text.toList
  · rw [parse_of_blank hblank, Except.error.injEq]
    constructor
    · rintro rfl
      exact ⟨[], [], [], tokens_of_blank hblank, List.forall_mem_nil _, .empty hblank⟩
    · rintro ⟨good, bad, later, -, -, hrefused⟩
      cases hrefused with
      | misspelt _ hsome _ => exact absurd hblank hsome
      | empty _ => rfl
  · rw [parse_of_not_blank hblank, mapM_eq_error_iff]
    simp only [parseToken_eq_ok_iff, parseToken_eq_error_iff]
    have hrefused : ∀ token, Refused text token e ↔ Misspelt token e := by
      intro token
      refine ⟨fun h => ?_, .misspelt e hblank⟩
      cases h with
      | misspelt _ _ h => exact h
      | empty hall => exact absurd hall hblank
    simp only [hrefused]

/-! ## Writing an annotation -/

theorem Formed.visible {digits : Option (List Char)} (h : Formed token port digits) :
    ∀ c ∈ token, '-' ≤ c ∧ c ≤ 'z' := by
  have hname : ∀ {name : List Char}, PortName name → ∀ c ∈ name, '-' ≤ c ∧ c ≤ 'z' := by
    intro name hname c hc
    rcases hname.alnum_or_hyphen c hc with halnum | rfl
    · exact ⟨halnum.visible.1, halnum.visible.2.1⟩
    · decide
  cases h with
  | bare _ h => exact hname h
  | explicit name digits h hsome hdigits =>
      rw [List.forall_mem_append, List.forall_mem_cons]
      refine ⟨hname h, by decide, fun c hc => ?_⟩
      have halnum : Alnum c := Or.inr (hdigits c hc)
      exact ⟨halnum.visible.1, halnum.visible.2.1⟩

theorem spells_text (h : Valid m) : Spells m.text.toList m := by
  obtain ⟨port, external⟩ := m
  cases external with
  | none =>
      have hform := Formed.bare port.toList h.name
      rw [String.ofList_toList] at hform
      exact .bare port hform
  | some p =>
      have hdigits : ∀ c ∈ Nat.toDigits 10 p.toNat, '0' ≤ c ∧ c ≤ '9' :=
        fun c hc => Text.isDigit_iff.mp (Text.isDigit_of_mem_toDigits c hc)
      have hform := Formed.explicit port.toList (Nat.toDigits 10 p.toNat) h.name
        Nat.toDigits_ne_nil hdigits
      have htext : PortMapping.text ⟨port, some p⟩ =
          String.ofList (port.toList ++ ':' :: Nat.toDigits 10 p.toNat) := by
        apply String.toList_injective
        simp [PortMapping.text, Text.showNat]
      have hvalue : value (Nat.toDigits 10 p.toNat) = p.toNat := by
        unfold value
        rw [← Text.digitsValue_eq, Text.digitsValue_toDigits]
      have hpos : p.toNat ≠ 0 := by
        intro hzero
        have hp : p = 0 := UInt16.toNat_inj.mp hzero
        exact h.external (congrArg some hp)
      have hhigh := p.toNat_lt
      rw [String.ofList_toList] at hform
      rw [htext, String.toList_ofList]
      exact .explicit port _ p hform ⟨by omega, by omega⟩ hvalue.symm

theorem Spells.visible (h : Spells token m) : ∀ c ∈ token, '-' ≤ c ∧ c ≤ 'z' := by
  cases h with
  | bare port hform => exact hform.visible
  | explicit port digits external hform => exact hform.visible

theorem Placed.Fits.trim {p : Placed} (h : p.Fits) :
    Text.trim p.text = p.mapping.text.toList := by
  refine Text.trim_around h.before (fun c hc => ?_) h.after
  obtain ⟨hlow, hhigh⟩ := (spells_text h.valid).visible c hc
  exact Text.isBlank_eq_false_of_visible (Char.le_trans (by decide) hlow)
    (Char.le_trans hhigh (by decide))

theorem Placed.Fits.comma_notMem {p : Placed} (h : p.Fits) : ',' ∉ p.text := by
  have hblank : ∀ {cs}, Blank cs → ',' ∉ cs := fun hcs hmem =>
    absurd (hcs ',' hmem) (by decide)
  have htoken : ',' ∉ p.mapping.text.toList :=
    fun hmem => absurd ((spells_text h.valid).visible ',' hmem).1 (by decide)
  simp [Placed.text, hblank h.before, htoken, hblank h.after]

theorem tokens_write {placed : List Placed} (hsome : placed ≠ [])
    (hfits : ∀ p ∈ placed, p.Fits) :
    tokens (write placed) = placed.map fun p => p.mapping.text.toList := by
  have hcomma : ∀ piece ∈ placed.map Placed.text, ',' ∉ piece := by
    rw [List.forall_mem_map]
    exact fun p hp => (hfits p hp).comma_notMem
  unfold tokens write
  rw [String.toList_ofList, List.splitOn_intercalate ',' hcomma (by simpa using hsome),
    List.map_map]
  exact List.map_congr_left fun p hp => (hfits p hp).trim

/-- **What is written is read back**, whatever blanks stand around the tokens. -/
theorem parse_write {placed : List Placed} (hsome : placed ≠ [])
    (hfits : ∀ p ∈ placed, p.Fits) :
    parse (write placed) = .ok (placed.map Placed.mapping) := by
  rw [parse_eq_ok_iff, tokens_write hsome hfits, List.forall₂_map_left_iff,
    List.forall₂_map_right_iff, List.forall₂_same]
  exact fun p hp => spells_text (hfits p hp).valid

/-- **The reader accepts its grammar and nothing else**, reports the first token
that spells nothing, and reads back what is written. -/
theorem grammar_exact :
    (∀ (text : String) (ms : List PortMapping),
      parse text = .ok ms ↔ List.Forall₂ Spells (tokens text) ms) ∧
    (∀ text : String,
      (∃ ms, parse text = .ok ms) ↔ ∀ token ∈ tokens text, ∃ m, Spells token m) ∧
    (∀ (text : String) (e : MappingError),
      parse text = .error e ↔ ∃ good bad later, tokens text = good ++ bad :: later ∧
        (∀ token ∈ good, ∃ m, Spells token m) ∧ Refused text bad e) ∧
    ∀ placed : List Placed, placed ≠ [] → (∀ p ∈ placed, p.Fits) →
      parse (write placed) = .ok (placed.map Placed.mapping) := by
  refine ⟨fun _ _ => parse_eq_ok_iff, fun text => ?_, fun _ _ => parse_eq_error_iff,
    fun _ => parse_write⟩
  simp only [parse_eq_ok_iff]
  exact exists_forall₂_iff

/-- Two tokens among blanks of many kinds, and a text in which the second of three
is the first that spells nothing. -/
theorem grammar_exact_spread :
    let placed : List Placed := [⟨[' '], ⟨"http", none⟩, []⟩,
      ⟨['\u2003', '\t'], ⟨"a-b", some 8443⟩, ['\n']⟩]
    let text := "http:080, web- ,x:65536"
    placed ≠ [] ∧ (∀ p ∈ placed, p.Fits) ∧ write placed = " http,\u2003\ta-b:8443\n" ∧
      parse (write placed) = .ok [⟨"http", none⟩, ⟨"a-b", some 8443⟩] ∧
      parse text = .error (.malformed "web-") ∧
      ∃ good bad later, tokens text = good ++ bad :: later ∧
        (∀ token ∈ good, ∃ m, Spells token m) ∧ Refused text bad (.malformed "web-") := by
  intro placed text
  obtain ⟨-, -, herror, hwrite⟩ := grammar_exact
  have hfits : ∀ p ∈ placed, p.Fits := by
    simp only [placed, List.forall_mem_cons]
    refine ⟨⟨?_, ⟨isPortName_iff.mp (by decide), by decide⟩, ?_⟩,
      ⟨?_, ⟨isPortName_iff.mp (by decide), by decide⟩, ?_⟩, List.forall_mem_nil _⟩
    all_goals exact fun c hc => List.all_eq_true.mp (by decide) c hc
  have hsome : placed ≠ [] := by simp [placed]
  have hreported : parse text = .error (.malformed "web-") := by decide
  exact ⟨hsome, hfits, by decide, hwrite placed hsome hfits, hreported,
    (herror text _).mp hreported⟩

example : parse "http:0080,a-b" = .ok [⟨"http", some 80⟩, ⟨"a-b", none⟩] := by decide

end PortForwarding.Mapping
