import Mathlib.Logic.Function.Basic
import Mathlib.Logic.Relation
import PortForwarding.Proofs.Service.Stored

/-!
# Finalizers of others

A Service bears the finalizers of other controllers as well, and the list of all
finalizers can only be written as a whole. The operator asks for the list, puts
its own finalizer on or takes it off, and writes what it has made of it. Meanwhile
other controllers may have put theirs on or taken them off, and what the operator
writes has their finalizers as it was told of them.

Here any number of calls of the operator are under way on one Service, among the
writes of other controllers. `Astray` is what becomes of a finalizer that was
written between the question and the answer: the theorem `kept_iff_not_astray`
says when a finalizer is as its own controller has left it, and `overwritten` that
it need not be.
-/

namespace PortForwarding.Contention

open Script

/-! ## Calls among the writes of others -/

/-- What the operator does with its own finalizer. -/
inductive Act where
  | add
  | remove
  deriving DecidableEq, Repr

def Act.script (key : ServiceKey) : Act → Script (Except StoreError Unit)
  | .add => (Mark.addFinalizer key).run
  | .remove => (Mark.removeFinalizer key).run

/-- What happens to the finalizers of a Service. -/
inductive Event where
  /-- Another controller puts its finalizer on, or takes it off. -/
  | write (name : String) (present : Bool)
  /-- A call of the operator is told what finalizers there are. -/
  | read (call : Nat) (names : List String)
  /-- The list that a call of the operator has made is written. -/
  | patch (call : Nat)
  deriving DecidableEq, Repr

/-- What an answer to a call of the operator is for the finalizers. -/
def noted (call : Nat) : Exchange → List Event
  | ⟨.store (.get _), .ok object⟩ => [.read call object.finalizers]
  | ⟨.store (.patch _ _), .ok _⟩ => [.patch call]
  | _ => []

/-- The Service, what is left to do of each call of the operator, and what has
happened so far, the latest first. -/
structure Situation where
  stored : Stored
  calls : Nat → Script (Except StoreError Unit)
  past : List Event

def start (object : ServiceObject) (acts : Nat → Act) : Situation where
  stored := ⟨object, false, false, 0⟩
  calls i := (acts i).script object.key
  past := []

/-- The Service after the whole list of its finalizers was written. -/
def listed (stored : Stored) (names : List String) : Stored :=
  { stored with object := { stored.object with finalizers := names } }

def Situation.written (s : Situation) (name : String) (present : Bool)
    (object : ServiceObject) : Situation :=
  { s with
    stored := { s.stored with object := object }, past := .write name present :: s.past }

def Situation.turn (s : Situation) (call : Nat) (stored : Stored)
    (events : List Event) (script : Script (Except StoreError Unit)) :
    Situation where
  stored := stored
  calls := Function.update s.calls call script
  past := events ++ s.past

/-- Another controller writes its own finalizer, or what one of the calls asks for
is answered. What else the others do to the object does not matter. -/
inductive Step (s : Situation) : Situation → Prop where
  | write {name : String} {present : Bool} {object : ServiceObject}
      (hother : name ≠ Mark.finalizer) (hkey : object.key = s.stored.object.key)
      (hset : ∀ n, n ≠ Mark.finalizer → (n ∈ object.finalizers ↔
        if n = name then present = true else n ∈ s.stored.object.finalizers)) :
      Step s (s.written name present object)
  | answer {call : Nat} {r : Request} {next : r.Reply → Script (Except StoreError Unit)}
      {reply : r.Reply} {t : Stored} (hcall : s.calls call = .ask r next)
      (hmay : Stored.May s.stored r reply t) :
      Step s (s.turn call t (noted call ⟨r, reply⟩) (next reply))

/-- What comes of the Service and the calls, in any order. -/
def Reaches : Situation → Situation → Prop :=
  Relation.ReflTransGen Step

/-! ## What has become of a finalizer -/

/-- A finalizer as its own controller has left it. -/
def left (object : ServiceObject) (name : String) : List Event → Bool
  | [] => object.finalizers.contains name
  | .write n present :: past => if n = name then present else left object name past
  | .read _ _ :: past | .patch _ :: past => left object name past

def shown (call : Nat) : List Event → List String
  | [] => []
  | .read i names :: past => if i = call then names else shown call past
  | .write _ _ :: past | .patch _ :: past => shown call past

/-- A call has been told of the finalizers, and this one has not been
written since. -/
def Fresh (call : Nat) (name : String) : List Event → Prop
  | [] => False
  | .read i _ :: past => i = call ∨ Fresh call name past
  | .write n _ :: past => n ≠ name ∧ Fresh call name past
  | .patch _ :: past => Fresh call name past

/-- Whenever a call wrote its list, it had been told of the finalizer as it was
written last. -/
def Clean (name : String) : List Event → Prop
  | [] => True
  | .patch i :: past => Fresh i name past ∧ Clean name past
  | .write _ _ :: past | .read _ _ :: past => Clean name past

/-- A finalizer has gone astray: the latest list that a call has written, since
the controller of the finalizer wrote it, was made of what the call had been
told otherwise. -/
def Astray (object : ServiceObject) (name : String) : List Event → Prop
  | [] => False
  | .write n _ :: past => n ≠ name ∧ Astray object name past
  | .read _ _ :: past => Astray object name past
  | .patch i :: past => ¬(name ∈ shown i past ↔ left object name past = true)

/-! ## Steps of the calls -/

variable {key : ServiceKey} {object : ServiceObject} {acts : Nat → Act}
  {s t : Situation} {name : String} {call : Nat} {past : List Event}

def writing (key : ServiceKey) (names : List String) :
    Script (Except StoreError Unit) :=
  .ask (.store (.patch key (.finalizers names))) .done

/-- What an act makes of the finalizers, if it has anything to write. -/
def Act.list? (names : List String) : Act → Option (List String)
  | .add => if names.contains Mark.finalizer then none else some (Mark.withOwn names)
  | .remove =>
      if names.contains Mark.finalizer then some (Mark.withoutOwn names) else none

def Act.told (key : ServiceKey) (act : Act) :
    Except StoreError ServiceObject → Script (Except StoreError Unit)
  | .ok object => ((act.list? object.finalizers).map (writing key)).getD (.done (.ok ()))
  | .error e => .done (match act with
    | .add => .error e
    | .remove => if e.isNotFound then .ok () else .error e)

/-- **A call asks for the finalizers first.** -/
theorem script_eq (act : Act) (key : ServiceKey) :
    act.script key = .ask (.store (.get key)) (act.told key) := by
  cases act with
  | add =>
      show (Mark.addFinalizer key).run = _
      unfold Mark.addFinalizer
      rw [run_tryBind]
      show Script.ask (.store (.get key)) _ = _
      congr 1
      funext reply
      cases reply with
      | error e => rfl
      | ok object =>
          show (ite _ _ _ : ExceptT StoreError Script Unit).run = _
          simp only [Act.told, Act.list?]
          split <;> rfl
  | remove =>
      show (Mark.removeFinalizer key).run = _
      unfold Mark.removeFinalizer
      rw [run_tryBind]
      show Script.ask (.store (.get key)) _ = _
      congr 1
      funext reply
      cases reply with
      | error e =>
          cases hgone : e.isNotFound with
          | true => simp [Act.told, hgone]
          | false => simp [Act.told, hgone]
      | ok object =>
          show (ite _ _ _ : ExceptT StoreError Script Unit).run = _
          simp only [Act.told, Act.list?]
          split <;> rfl

/-- What is written has the finalizers of all others as the call was told. -/
theorem mem_of_list? {act : Act} {names list : List String}
    (h : act.list? names = some list) (hother : name ≠ Mark.finalizer) :
    name ∈ list ↔ name ∈ names := by
  cases act with
  | add =>
      unfold Act.list? at h
      obtain ⟨-, hlist⟩ := Option.ite_none_left_eq_some.mp h
      rw [← Option.some.inj hlist]
      simp [Mark.withOwn, hother]
  | remove =>
      unfold Act.list? at h
      obtain ⟨-, hlist⟩ := Option.ite_none_right_eq_some.mp h
      rw [← Option.some.inj hlist]
      simp [Mark.withoutOwn, hother]

/-- How far a call has come: it has yet to ask, it has yet to write a list that
has the finalizers of all others as it was told, or it has come to its end. -/
inductive Stands (key : ServiceKey) (act : Act) (call : Nat) (past : List Event) :
    Script (Except StoreError Unit) → Prop where
  | asking : Stands key act call past (.ask (.store (.get key)) (act.told key))
  | writing {list : List String}
      (hlist : ∀ n, n ≠ Mark.finalizer → (n ∈ list ↔ n ∈ shown call past)) :
      Stands key act call past (writing key list)
  | done (r : Except StoreError Unit) : Stands key act call past (.done r)

theorem Stands.after {act : Act} {past' : List Event}
    {script : Script (Except StoreError Unit)}
    (h : Stands key act call past script)
    (hshown : shown call past' = shown call past) :
    Stands key act call past' script := by
  cases h with
  | asking => exact .asking
  | writing hlist =>
      refine .writing ?_
      rw [hshown]
      exact hlist
  | done r => exact .done r

inductive Answered (s : Situation) (key : ServiceKey) (act : Act) (call : Nat) :
    Stored → List Event → Script (Except StoreError Unit) → Prop where
  | read : Answered s key act call s.stored [.read call s.stored.object.finalizers]
      (act.told key (.ok s.stored.object))
  | patch {list : List String}
      (hlist : ∀ n, n ≠ Mark.finalizer → (n ∈ list ↔ n ∈ shown call s.past)) :
      Answered s key act call
        (listed s.stored list) [.patch call] (.done (.ok ()))
  | failed {t : Stored} (r : Except StoreError Unit)
      (hobject : t.object = s.stored.object) :
      Answered s key act call t [] (.done r)

theorem answered {act : Act} {r : Request}
    {next : r.Reply → Script (Except StoreError Unit)} {reply : r.Reply}
    {t : Stored} (hkey : key = s.stored.object.key)
    (hstands : Stands key act call s.past (s.calls call))
    (hcall : s.calls call = .ask r next) (hmay : Stored.May s.stored r reply t) :
    Answered s key act call t (noted call ⟨r, reply⟩) (next reply) := by
  rw [hcall] at hstands
  generalize hscript : Script.ask r next = script at hstands
  cases hstands with
  | asking =>
      obtain ⟨rfl, hnext⟩ := Script.ask.inj hscript
      obtain rfl := eq_of_heq hnext
      rcases Stored.may_get hkey hmay with ⟨rfl, -, rfl⟩ | ⟨e, rfl, rfl⟩
      · exact .read
      · exact .failed _ rfl
  | writing hlist =>
      obtain ⟨rfl, hnext⟩ := Script.ask.inj hscript
      obtain rfl := eq_of_heq hnext
      rcases Stored.may_patch hkey hmay with ⟨rfl, object, hpatched, rfl⟩ | ⟨e, rfl, rfl⟩
      · obtain rfl : object = _ := hpatched
        exact .patch hlist
      · exact .failed _ rfl
  | done r => exact absurd hscript (by simp)

/-! ## What all runs keep -/

/-- What the Service bears, told from what has happened. -/
structure Known (object : ServiceObject) (acts : Nat → Act) (s : Situation) :
    Prop where
  key : s.stored.object.key = object.key
  stands : ∀ call, Stands object.key (acts call) call s.past (s.calls call)
  astray : ∀ name, name ≠ Mark.finalizer →
    ((name ∈ s.stored.object.finalizers ↔ left object name s.past = true) ↔
      ¬Astray object name s.past)
  fresh : ∀ name, name ≠ Mark.finalizer → Clean name s.past →
    ∀ call, Fresh call name s.past →
    (name ∈ shown call s.past ↔ left object name s.past = true)
  clean : ∀ name, name ≠ Mark.finalizer → Clean name s.past → ¬Astray object name s.past

theorem known_start (object : ServiceObject) (acts : Nat → Act) :
    Known object acts (start object acts) where
  key := rfl
  stands call := by
    show Stands _ _ _ _ ((acts call).script object.key)
    rw [script_eq]
    exact .asking
  astray name hother := by simp [start, left, Astray]
  fresh name hother hclean call hfresh := hfresh.elim
  clean name hother hclean := id

theorem Known.write {present : Bool} {o : ServiceObject} (h : Known object acts s)
    (hkey : o.key = s.stored.object.key)
    (hset : ∀ n, n ≠ Mark.finalizer → (n ∈ o.finalizers ↔
      if n = name then present = true else n ∈ s.stored.object.finalizers)) :
    Known object acts (s.written name present o) where
  key := hkey.trans h.key
  stands call := (h.stands call).after rfl
  astray n hother := by
    show (n ∈ o.finalizers ↔
      (if name = n then present else left object n s.past) = true) ↔
      ¬(name ≠ n ∧ Astray object n s.past)
    rw [hset n hother]
    by_cases hname : name = n
    · simp [hname]
    · simp [hname, Ne.symm hname, h.astray n hother]
  fresh n hother hclean call hfresh := by
    obtain ⟨hname, hfresh⟩ := hfresh
    show n ∈ shown call s.past ↔
      (if name = n then present else left object n s.past) = true
    rw [if_neg hname]
    exact h.fresh n hother hclean call hfresh
  clean n hother hclean hastray := h.clean n hother hclean hastray.2

/-- A finalizer is as its own controller left it, if no list went astray. -/
theorem Known.kept (h : Known object acts s) (hother : name ≠ Mark.finalizer)
    (hclean : Clean name s.past) :
    name ∈ s.stored.object.finalizers ↔ left object name s.past = true :=
  (h.astray name hother).mpr (h.clean name hother hclean)

theorem stands_told (key : ServiceKey) (act : Act) (call : Nat)
    (names : ServiceObject) (past : List Event) :
    Stands key act call (.read call names.finalizers :: past)
      (act.told key (.ok names)) := by
  show Stands _ _ _ _ (((act.list? names.finalizers).map (writing key)).getD
    (.done (.ok ())))
  cases hlist : act.list? names.finalizers with
  | none => exact .done _
  | some list =>
      refine .writing fun n hother => ?_
      show n ∈ list ↔ n ∈ if call = call then names.finalizers else shown call past
      rw [if_pos rfl]
      exact mem_of_list? hlist hother

theorem Known.answer {t : Stored} {events : List Event}
    {script : Script (Except StoreError Unit)} (h : Known object acts s)
    (hanswered : Answered s object.key (acts call) call t events script) :
    Known object acts (s.turn call t events script) := by
  have hstands : ∀ {past},
      (∀ other, other ≠ call → shown other past = shown other s.past) →
        Stands object.key (acts call) call past script → ∀ other,
        Stands object.key (acts other) other past
            (Function.update s.calls call script other) := by
    intro past hshown hself other
    by_cases hother : other = call
    · subst hother
      rw [Function.update_self]
      exact hself
    · rw [Function.update_of_ne hother]
      exact (h.stands other).after (hshown other hother)
  cases hanswered with
  | read =>
      refine ⟨h.key,
        hstands (fun other hne => if_neg (Ne.symm hne)) (stands_told ..),
        h.astray, ?_, h.clean⟩
      intro n hother hclean other hfresh
      show (n ∈ if call = other then s.stored.object.finalizers else shown other s.past) ↔
        left object n s.past = true
      split
      · exact h.kept hother hclean
      · next hne => exact h.fresh n hother hclean other (hfresh.resolve_left hne)
  | @patch list hlist =>
      refine ⟨h.key, hstands (fun _ _ => rfl) (.done _), ?_, ?_, ?_⟩
      · intro n hother
        show (n ∈ list ↔ left object n s.past = true) ↔
          ¬¬(n ∈ shown call s.past ↔ left object n s.past = true)
        rw [not_not, hlist n hother]
      · intro n hother hclean other hfresh
        exact h.fresh n hother hclean.2 other hfresh
      · intro n hother hclean
        obtain ⟨hfresh, hclean⟩ := hclean
        show ¬¬(n ∈ shown call s.past ↔ left object n s.past = true)
        rw [not_not]
        exact h.fresh n hother hclean call hfresh
  | failed r hobject =>
      refine ⟨?_, hstands (fun _ _ => rfl) (.done _), ?_, h.fresh, h.clean⟩
      · exact (congrArg ServiceObject.key hobject).trans h.key
      · intro n hother
        show (n ∈ t.object.finalizers ↔ left object n s.past = true) ↔
          ¬Astray object n s.past
        rw [hobject]
        exact h.astray n hother

theorem Known.step (h : Known object acts s) (hstep : Step s t) :
    Known object acts t := by
  cases hstep with
  | write hother hkey hset => exact h.write hkey hset
  | answer hcall hmay => exact h.answer (answered h.key.symm (h.stands _) hcall hmay)

theorem known_of_reaches (h : Reaches (start object acts) s) :
    Known object acts s := by
  induction h with
  | refl => exact known_start object acts
  | tail _ hstep ih => exact ih.step hstep

/-! ## Finalizers that are kept, and those that are not -/

/-- **A finalizer of another controller is as its controller has left it, unless
it has gone astray.** None goes astray if each list was written before the
finalizer was written again. -/
theorem kept_iff_not_astray (h : Reaches (start object acts) s)
    (hother : name ≠ Mark.finalizer) :
    ((name ∈ s.stored.object.finalizers ↔ left object name s.past = true) ↔
        ¬Astray object name s.past) ∧
      (Clean name s.past → ¬Astray object name s.past) := by
  have hknown := known_of_reaches h
  exact ⟨hknown.astray name hother, hknown.clean name hother⟩

theorem calls_turn (s : Situation) (call : Nat) (t : Stored) (events : List Event)
    (script : Script (Except StoreError Unit)) :
    (s.turn call t events script).calls call = script := by
  simp [Situation.turn]

theorem step_read
    {next : Except StoreError ServiceObject → Script (Except StoreError Unit)}
    (hcall : s.calls call = .ask (.store (.get key)) next)
    (hgone : s.stored.gone = false) :
    Step s (s.turn call s.stored [.read call s.stored.object.finalizers]
      (next (.ok s.stored.object))) :=
  Step.answer hcall ⟨fun _ => ⟨hgone, rfl⟩, rfl⟩

/-- The list that a call has made may be written while the Service is there. -/
theorem step_patch {list : List String} (hcall : s.calls call = writing key list)
    (hkey : key = s.stored.object.key) (hgone : s.stored.gone = false) :
    Step s (s.turn call (listed s.stored list) [.patch call] (.done (.ok ()))) := by
  refine Step.answer hcall ?_
  show if key = s.stored.object.key then _ else _
  rw [if_pos hkey]
  exact ⟨hgone, _, rfl, rfl⟩

/-- **What others write between the question and the answer is overwritten.** -/
theorem reaches_overwritten (object o : ServiceObject) (act : Act) (name : String)
    (present : Bool) {list : List String}
    (hlist : act.list? object.finalizers = some list)
    (hother : name ≠ Mark.finalizer) (hkey : o.key = object.key)
    (hset : ∀ n, n ≠ Mark.finalizer → (n ∈ o.finalizers ↔
      if n = name then present = true else n ∈ object.finalizers)) :
    ∃ s, Reaches (start object fun _ => act) s ∧ s.calls 0 = .done (.ok ()) ∧
      s.stored.object = { o with finalizers := list } ∧
      s.past = [.patch 0, .write name present, .read 0 object.finalizers] := by
  have htold : act.told object.key (.ok object) = writing object.key list := by
    show (Option.map _ (act.list? object.finalizers)).getD _ = _
    rw [hlist]
    rfl
  let s₀ := start object fun _ => act
  let s₁ := s₀.turn 0 s₀.stored [.read 0 object.finalizers] (writing object.key list)
  let s₂ := s₁.written name present o
  have hread : Step s₀ s₁ := by
    have hask : s₀.calls 0 = .ask (.store (.get object.key)) (act.told object.key) :=
      script_eq act object.key
    have hstep : Step s₀ (s₀.turn 0 s₀.stored [.read 0 object.finalizers]
        (act.told object.key (.ok object))) := step_read hask rfl
    rw [htold] at hstep
    exact hstep
  have hwrite : Step s₁ s₂ := Step.write hother hkey hset
  have hcall : s₂.calls 0 = writing object.key list := by
    show s₁.calls 0 = _
    exact calls_turn ..
  have hpatch := step_patch hcall hkey.symm rfl
  exact ⟨_, ((Relation.ReflTransGen.single hread).tail hwrite).tail hpatch,
    calls_turn .., rfl, rfl⟩

def bearing (names : List String) : ServiceObject where
  «namespace» := some "default"
  name := some "web"
  uid := none
  annotations := []
  finalizers := names
  deleting := false
  ports := []
  ingress := []

/-- **The operator drops the finalizer of another controller, and brings one
back** that had been taken off. Either was written after the operator had been
told what finalizers there are. -/
theorem overwritten :
    (∃ s, Reaches (start (bearing []) fun _ => .add) s ∧ s.calls 0 = .done (.ok ()) ∧
      left (bearing []) "example.com/guard" s.past = true ∧
      "example.com/guard" ∉ s.stored.object.finalizers) ∧
    ∃ s, Reaches (start (bearing [Mark.finalizer, "example.com/guard"]) fun _ =>
      .remove) s ∧
      s.calls 0 = .done (.ok ()) ∧
      left (bearing [Mark.finalizer, "example.com/guard"]) "example.com/guard"
        s.past = false ∧
      "example.com/guard" ∈ s.stored.object.finalizers := by
  constructor
  · obtain ⟨s, hreaches, hdone, hobject, hpast⟩ :=
      reaches_overwritten (bearing []) (bearing ["example.com/guard"]) .add
        "example.com/guard" true rfl (by decide) rfl (by simp [bearing])
    refine ⟨s, hreaches, hdone, ?_, ?_⟩
    · rw [hpast]
      rfl
    · rw [hobject]
      decide
  · obtain ⟨s, hreaches, hdone, hobject, hpast⟩ :=
      reaches_overwritten (bearing [Mark.finalizer, "example.com/guard"])
        (bearing [Mark.finalizer])
        .remove "example.com/guard" false rfl (by decide) rfl (by
          intro n hother
          by_cases hname : n = "example.com/guard"
          · simp [bearing, hname, hname ▸ hother]
          · simp [bearing, hname, hother])
    refine ⟨s, hreaches, hdone, ?_, ?_⟩
    · rw [hpast]
      rfl
    · rw [hobject]
      decide

/-- The finalizer of one controller is kept, and that of another, which came late,
goes astray. -/
theorem kept_iff_not_astray_beside :
    ∃ s, Reaches (start (bearing ["example.com/volume"]) fun _ => .add) s ∧
      "example.com/volume" ∈ s.stored.object.finalizers ∧
      Astray (bearing ["example.com/volume"]) "example.com/guard" s.past := by
  obtain ⟨s, hreaches, -, hobject, hpast⟩ :=
    reaches_overwritten (bearing ["example.com/volume"])
      (bearing ["example.com/volume", "example.com/guard"]) .add
      "example.com/guard" true rfl
      (by decide) rfl (by
        intro n hother
        by_cases hname : n = "example.com/guard"
        · simp [bearing, hname]
        · simp [bearing, hname])
  refine ⟨s, hreaches, ?_, ?_⟩
  · obtain ⟨hkept, hclean⟩ :=
      @kept_iff_not_astray _ _ s "example.com/volume" hreaches (by decide)
    refine (hkept.mpr (hclean ?_)).mpr ?_
    · rw [hpast]
      exact ⟨⟨by decide, Or.inl rfl⟩, trivial⟩
    · rw [hpast]
      rfl
  · obtain ⟨hkept, -⟩ :=
      @kept_iff_not_astray _ _ s "example.com/guard" hreaches (by decide)
    by_contra hnot
    have hmem := (hkept.mpr hnot).mpr (by rw [hpast]; rfl)
    rw [hobject] at hmem
    exact absurd hmem (by decide)

end PortForwarding.Contention
