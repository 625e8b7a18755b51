import PortForwarding.Proofs.Rule.Owner
import PortForwarding.Proofs.Text.Blank

/-!
# Names and owners, one for one

Names are typed by hand on the router as well, in any characters. Of all texts
exactly those are read as an owner that are written for one (`parse_eq_some_iff`),
so that no rule has two owners and no rule that somebody made by hand has one.
Names that begin alike are told apart by the stroke and the colon, which stand in
no part of a name.
-/

namespace PortForwarding

/-- A text of small letters, digits, hyphens and dots, and not the empty one. -/
structure Plain (s : String) : Prop where
  nonempty : s ≠ ""
  chars : ∀ c ∈ s.toList, ('a' ≤ c ∧ c ≤ 'z') ∨ ('0' ≤ c ∧ c ≤ '9') ∨ c = '-' ∨ c = '.'

namespace Owner

variable {name : String} {o p : Owner} {mark : Char} {cs left right : List Char}

structure IsPlain (o : Owner) : Prop where
  «namespace» : Plain o.namespace
  service : Plain o.service
  port : Plain o.port

theorem isNameChar_iff {c : Char} :
    isNameChar c = true ↔
      ('a' ≤ c ∧ c ≤ 'z') ∨ ('0' ≤ c ∧ c ≤ '9') ∨ c = '-' ∨ c = '.' := by
  simp only [isNameChar, Bool.or_eq_true, Text.isLower_iff, Text.isDigit_iff,
    beq_iff_eq, or_assoc]

theorem isName_iff {s : String} : isName s.toList = true ↔ Plain s := by
  unfold isName
  rw [Bool.and_eq_true, List.all_eq_true]
  constructor
  · rintro ⟨hsome, hall⟩
    refine ⟨?_, fun c hc => isNameChar_iff.mp (hall c hc)⟩
    rintro rfl
    exact Bool.noConfusion hsome
  · intro h
    refine ⟨?_, fun c hc => isNameChar_iff.mpr (h.chars c hc)⟩
    simpa using h.nonempty

theorem valid_iff : o.Valid ↔ o.IsPlain :=
  ⟨fun h => ⟨isName_iff.mp h.namespace, isName_iff.mp h.service, isName_iff.mp h.port⟩,
    fun h => ⟨isName_iff.mpr h.namespace, isName_iff.mpr h.service,
      isName_iff.mpr h.port⟩⟩

/-- A text is taken apart at the first mark, and nothing of it is lost. -/
theorem eq_of_splitAtFirst (h : splitAtFirst mark cs = some (left, right)) :
    cs = left ++ mark :: right := by
  induction cs generalizing left with
  | nil => exact absurd h (by simp [splitAtFirst])
  | cons c cs ih =>
      unfold splitAtFirst at h
      split at h
      · next hc =>
          obtain ⟨rfl, rfl⟩ := Prod.mk.inj (Option.some.inj h)
          rw [hc, List.nil_append]
      · obtain ⟨⟨left', right'⟩, hsplit, heq⟩ := Option.map_eq_some_iff.mp h
        obtain ⟨rfl, rfl⟩ := Prod.mk.inj heq
        rw [ih hsplit, List.cons_append]

theorem valid_of_parse (h : parse name = some o) : o.Valid ∧ name = o.text := by
  obtain ⟨⟨ns, rest⟩, hstroke, h⟩ := Option.bind_eq_some_iff.mp h
  obtain ⟨⟨service, port⟩, hcolon, h⟩ := Option.bind_eq_some_iff.mp h
  dsimp only at hcolon h
  split at h
  · next hnames =>
      obtain rfl := Option.some.inj h
      obtain ⟨⟨hns, hservice⟩, hport⟩ := by simpa only [Bool.and_eq_true] using hnames
      refine ⟨⟨?_, ?_, ?_⟩, ?_⟩
      · simpa only [String.toList_ofList] using hns
      · simpa only [String.toList_ofList] using hservice
      · simpa only [String.toList_ofList] using hport
      · apply String.toList_injective
        rw [eq_of_splitAtFirst hstroke, eq_of_splitAtFirst hcolon]
        simp [text]
  · exact absurd h (by simp)

/-- **The texts that are read as an owner are those written for one with
plain parts.** -/
theorem parse_eq_some_iff : parse name = some o ↔ o.IsPlain ∧ name = o.text := by
  constructor
  · intro h
    obtain ⟨hvalid, hname⟩ := valid_of_parse h
    exact ⟨valid_iff.mp hvalid, hname⟩
  · rintro ⟨hplain, rfl⟩
    exact parse_text (valid_iff.mpr hplain)

theorem text_injective_of_isPlain (ho : o.IsPlain) (hp : p.IsPlain)
    (h : o.text = p.text) : o = p := by
  have hread : parse o.text = some p := parse_eq_some_iff.mpr ⟨hp, h⟩
  rw [parse_eq_some_iff.mpr ⟨ho, rfl⟩] at hread
  exact Option.some.inj hread

end Owner

namespace RouterRule

variable {r : RouterRule} {key : ServiceKey}

/-- **A Service owns a rule exactly if the rule is named for one of its ports.** -/
theorem isOwnedBy_iff_named :
    r.isOwnedBy key = true ↔
      ∃ port, (Owner.of key port).IsPlain ∧
        r.spec.name = (Owner.of key port).text := by
  rw [isOwnedBy_iff]
  constructor
  · rintro ⟨o, howner, rfl⟩
    exact ⟨o.port, Owner.parse_eq_some_iff.mp howner⟩
  · rintro ⟨port, hnamed⟩
    exact ⟨Owner.of key port, Owner.parse_eq_some_iff.mpr hnamed, rfl⟩

end RouterRule

/-- **Names and owners correspond one for one**, and so a rule has one owner
at most. -/
theorem Owner.naming_exact :
    (∀ (name : String) (o : Owner), Owner.parse name = some o ↔
      o.IsPlain ∧ name = o.text) ∧
    (∀ o p : Owner, o.IsPlain → p.IsPlain → o.text = p.text → o = p) ∧
    (∀ o : Owner, o.IsPlain → Owner.parse o.text = some o) ∧
    (∀ (name : String) (o : Owner), Owner.parse name = some o → o.text = name) ∧
    (∀ (r : RouterRule) (key : ServiceKey), r.isOwnedBy key = true ↔
      ∃ port, (Owner.of key port).IsPlain ∧ r.spec.name = (Owner.of key port).text) ∧
    ∀ (r : RouterRule) (key other : ServiceKey), key ≠ other →
      ¬(r.isOwnedBy key = true ∧ r.isOwnedBy other = true) := by
  refine ⟨fun _ _ => parse_eq_some_iff, fun _ _ => text_injective_of_isPlain,
    fun _ ho => parse_eq_some_iff.mpr ⟨ho, rfl⟩,
    fun _ _ h => (parse_eq_some_iff.mp h).2.symm,
    fun _ _ => RouterRule.isOwnedBy_iff_named, ?_⟩
  rintro r key other hne ⟨hkey, hother⟩
  exact hne (RuleSpec.isOwnedBy_unique (s := r.spec) hkey hother)

/-- A Service whose name goes on where another one's ends, and a rule that is
named for it. -/
theorem Owner.naming_exact_extension :
    let longer : ServiceKey := ⟨"default", "web-2"⟩
    let shorter : ServiceKey := ⟨"default", "web"⟩
    let r : RouterRule :=
      ⟨"a", ⟨"default/web-2:http", ⟨80, 80, .tcp⟩, .v4 10 0 0 5, true, "wan", none⟩⟩
    longer ≠ shorter ∧ r.isOwnedBy longer = true ∧ r.isOwnedBy shorter = false ∧
      (Owner.of longer "http").IsPlain ∧ (Owner.of longer "http").text = r.spec.name := by
  intro longer shorter r
  obtain ⟨hparse, -, -, htext, -, honce⟩ := Owner.naming_exact
  have hread :
    Owner.parse "default/web-2:http" = some (Owner.of longer "http") := by decide
  have hne : longer ≠ shorter := by decide
  have howned : r.isOwnedBy longer = true := by decide
  refine ⟨hne, howned, ?_, ((hparse _ _).mp hread).1, htext _ _ hread⟩
  exact Bool.eq_false_iff.mpr fun hshorter =>
    honce r longer shorter hne ⟨howned, hshorter⟩

example : Owner.parse "a/b/c:d" = none := by decide

end PortForwarding
