import PortForwarding.Rule

/-!
# Names that tell the owner

A rule's name is taken apart at the first stroke and the first colon after it. No
character of a valid name is either, so an owner is read back from the name that
was made for it, and what is written under that name is owned by its Service.
-/

namespace PortForwarding

namespace Owner

theorem splitAtFirst_append {mark : Char} {left right : List Char}
    (h : ∀ c ∈ left, c ≠ mark) :
    splitAtFirst mark (left ++ mark :: right) = some (left, right) := by
  induction left with
  | nil => simp [splitAtFirst]
  | cons c left ih =>
      have hc : c ≠ mark := h c List.mem_cons_self
      have hrest := ih fun d hd => h d (List.mem_cons_of_mem _ hd)
      simp [splitAtFirst, hc, hrest]

theorem ne_of_isName {mark : Char} {cs : List Char} (hmark : isNameChar mark = false)
    (h : isName cs = true) : ∀ c ∈ cs, c ≠ mark := by
  intro c hc heq
  unfold isName at h
  rw [Bool.and_eq_true, List.all_eq_true] at h
  have hchar := h.2 c hc
  rw [heq, hmark] at hchar
  exact Bool.noConfusion hchar

structure Valid (o : Owner) : Prop where
  «namespace» : isName o.namespace.toList = true
  service : isName o.service.toList = true
  port : isName o.port.toList = true

/-- **An owner is read back from its name.** -/
theorem parse_text {o : Owner} (h : o.Valid) : parse o.text = some o := by
  have hchars : o.text.toList =
      o.namespace.toList ++ '/' :: (o.service.toList ++ ':' :: o.port.toList) := by
    simp [text]
  unfold parse
  rw [hchars, splitAtFirst_append (ne_of_isName rfl h.namespace)]
  simp only [Option.bind_eq_bind, Option.bind_some]
  rw [splitAtFirst_append (ne_of_isName rfl h.service)]
  simp [h.namespace, h.service, h.port]

end Owner

/-- Whether a rule with these settings tells that the Service owns it. -/
def RuleSpec.isOwnedBy (s : RuleSpec) (key : ServiceKey) : Bool :=
  ((Owner.parse s.name).map Owner.key) == some key

theorem RuleSpec.isOwnedBy_unique {s : RuleSpec} {key other : ServiceKey}
    (h : s.isOwnedBy key = true) (h' : s.isOwnedBy other = true) : key = other := by
  unfold isOwnedBy at h h'
  rw [beq_iff_eq] at h h'
  exact Option.some.inj (h.symm.trans h')

namespace RouterRule

theorem isOwnedBy_iff {r : RouterRule} {key : ServiceKey} :
    r.isOwnedBy key = true ↔ ∃ o, r.owner? = some o ∧ o.key = key := by
  simp [isOwnedBy]

theorem isOwnedBy_of_name {r : RouterRule} {o : Owner} (h : o.Valid)
    (hname : r.spec.name = o.text) : r.isOwnedBy o.key = true := by
  refine isOwnedBy_iff.mpr ⟨o, ?_, rfl⟩
  unfold owner?
  rw [hname, Owner.parse_text h]

end RouterRule

end PortForwarding
