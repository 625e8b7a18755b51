import PortForwarding.Proofs.Script.Ensures
import PortForwarding.Proofs.Time.RoundTrip
import PortForwarding.Service.Marking
import PortForwarding.Service.View

/-!
# A Service in the Kubernetes API

`Stored` is a Service as the API has it, and `Stored.May` are the rules by which
the API answers about it: a call may fail, and one that fails changes nothing; a
change that is taken is made (`Patched`); the answer that the Service is not found
means that it is gone. The router and the shared memory may answer as they like,
and the clock may show any time.
-/

namespace PortForwarding

open Script

variable {change : ServicePatch} {o o' : ServiceObject}

def Patched (change : ServicePatch) (o o' : ServiceObject) : Prop :=
  match change with
  | .finalizers names => o' = { o with finalizers := names }
  | .annotations changes =>
    (∀ name, o'.annotation? name = (changes.lookup name).getD (o.annotation? name)) ∧
      o' = { o with annotations := o'.annotations }

theorem lookup_map_const {α : Type} (a : α) (names : List String) (name : String) :
    (names.map fun n => (n, a)).lookup name =
      if name ∈ names then some a else none := by
  induction names with
  | nil => rfl
  | cons n names ih =>
      rw [List.map_cons, List.lookup_cons]
      by_cases h : name = n
      · simp [h]
      · have hbeq : (name == n) = false := beq_false_of_ne h
        simp [hbeq, ih, h]

/-- The object with the changed annotations in front, and the others as
they were. -/
def ServiceObject.patch (o : ServiceObject) : ServicePatch → ServiceObject
  | .finalizers names => { o with finalizers := names }
  | .annotations changes =>
    { o with
        annotations := (changes.map Prod.fst).filterMap (fun name =>
          (changes.lookup name).join.map (name, ·)) ++
          o.annotations.filter fun a => (changes.lookup a.1).isNone }

theorem lookup_filterMap_key {α : Type} (f : String → Option α) (names : List String)
    (name : String) :
    (names.filterMap fun n => (f n).map (n, ·)).lookup name =
      if name ∈ names then f name else none := by
  induction names with
  | nil => rfl
  | cons n names ih =>
      rw [List.filterMap_cons]
      by_cases h : name = n
      · subst h
        cases hf : f name with
        | none =>
            simp only [Option.map_none, ih, hf, List.mem_cons]
            split <;> split <;> rfl
        | some a => simp
      · have hbeq : (name == n) = false := beq_false_of_ne h
        cases hf : f n with
        | none => simp [ih, h]
        | some a => simp [List.lookup_cons, hbeq, ih, h]

theorem lookup_filter_key {α : Type} (p : String → Bool) (as : List (String × α))
    (name : String) :
    (as.filter fun a => p a.1).lookup name =
      if p name then as.lookup name else none := by
  induction as with
  | nil => simp
  | cons a as ih =>
      obtain ⟨n, v⟩ := a
      rw [List.filter_cons, List.lookup_cons]
      by_cases h : name = n
      · subst h
        cases hp : p name with
        | true => simp
        | false => simp [ih, hp]
      · have hbeq : (name == n) = false := beq_false_of_ne h
        cases hp : p n with
        | true => simp [List.lookup_cons, hbeq, ih]
        | false => simp [ih, hbeq]

theorem lookup_isSome_iff_mem {α : Type} (as : List (String × α)) (name : String) :
    (as.lookup name).isSome = true ↔ name ∈ as.map Prod.fst := by
  induction as with
  | nil => simp
  | cons a as ih =>
      obtain ⟨n, v⟩ := a
      rw [List.lookup_cons]
      by_cases h : name = n
      · simp [h]
      · have hbeq : (name == n) = false := beq_false_of_ne h
        simp [hbeq, ih, h]

/-- **Every change can be made.** -/
theorem patched_patch (change : ServicePatch) (o : ServiceObject) :
    Patched change o (o.patch change) := by
  cases change with
  | finalizers names => rfl
  | annotations changes =>
      refine ⟨fun name => ?_, rfl⟩
      show List.lookup _ (_ ++ _) = _
      rw [List.lookup_append, lookup_filterMap_key,
        lookup_filter_key fun n => (changes.lookup n).isNone]
      by_cases hmem : name ∈ changes.map Prod.fst
      · obtain ⟨value, hvalue⟩ := Option.isSome_iff_exists.mp
          ((lookup_isSome_iff_mem changes name).mpr hmem)
        rw [if_pos hmem, hvalue]
        cases value <;> rfl
      · have hnone : changes.lookup name = none := by
          rw [← Option.not_isSome_iff_eq_none, lookup_isSome_iff_mem]
          exact hmem
        rw [if_neg hmem, hnone]
        rfl

/-- The second object is the first one up to what the operator writes: finalizers,
and the annotations of its own state. -/
structure Marked (o o' : ServiceObject) : Prop where
  rest : o' = { o with annotations := o'.annotations, finalizers := o'.finalizers }
  annotation : ∀ name, name ∉ Mark.operatorState →
    o'.annotation? name = o.annotation? name

theorem Marked.refl (o : ServiceObject) : Marked o o :=
  ⟨rfl, fun _ _ => rfl⟩

theorem Marked.trans {o'' : ServiceObject} (h : Marked o o') (h' : Marked o' o'') :
    Marked o o'' := by
  refine ⟨?_, fun name hname =>
    (h'.annotation name hname).trans (h.annotation name hname)⟩
  rw [h'.rest, h.rest]

theorem Marked.key (h : Marked o o') : o'.key = o.key := by
  rw [h.rest]
  rfl

theorem Patched.marked_of_annotations {changes : List (String × Option String)}
    (h : Patched (.annotations changes) o o')
    (hown : ∀ name, name ∉ Mark.operatorState → changes.lookup name = none) :
    Marked o o' := by
  obtain ⟨hlookup, hrest⟩ := h
  refine ⟨?_, fun name hname => ?_⟩
  · rw [hrest]
  · rw [hlookup, hown name hname]
    rfl

theorem Patched.marked_of_finalizers {names : List String}
    (h : Patched (.finalizers names) o o') :
    Marked o o' ∧ o'.finalizers = names := by
  obtain rfl : o' = _ := h
  exact ⟨⟨rfl, fun _ _ => rfl⟩, rfl⟩

theorem Patched.key (h : Patched change o o') : o'.key = o.key := by
  cases change with
  | finalizers names =>
      obtain rfl : o' = _ := h
      rfl
  | annotations changes =>
      rw [h.2]
      rfl

/-- A Service as the Kubernetes API has it. -/
structure Stored where
  object : ServiceObject
  /-- Whether the API has said that there is no such Service. -/
  gone : Bool
  /-- Whether a call to the API has failed. -/
  failed : Bool
  /-- The count of the latest time that the clock has shown. -/
  clock : Int

namespace Stored

/-- What may be answered, and how the Service is then. -/
def May : Possible Stored := fun s request reply t =>
  match request, reply with
  | .store (.get key), .ok object =>
    (key = s.object.key → s.gone = false ∧ object = s.object) ∧ t = s
  | .store (.get key), .error e =>
    t = { s with
      failed := true, gone := s.gone || (e.isNotFound && decide (key = s.object.key)) }
  | .store (.patch key change), .ok () =>
    if key = s.object.key then
      s.gone = false ∧ ∃ object, Patched change s.object object ∧
        t = { s with object := object }
    else t = s
  | .store (.patch _ _), .error _ => t = { s with failed := true }
  | .store .list, .error _ => t = { s with failed := true }
  | .now, reading => reading.Reading ∧ t = { s with clock := reading.instant }
  | _, _ => t = s

/-- The finalizer does not hold the Service back: it is off, or the Service
is gone. -/
def Released (s : Stored) : Prop :=
  s.gone = true ∨ Mark.finalizer ∉ s.object.finalizers

def Apart : Request → Prop
  | .store _ | .now => False
  | _ => True

variable {s t : Stored}

theorem Apart.may {r : Request} {reply : r.Reply} (hr : Apart r)
    (h : May s r reply t) : t = s := by
  cases r with
  | store _ | now => exact hr.elim
  | router _ | memory _ | publish _ _ | cancelled | lock _ | unlock _ => exact h

/-- Where no call has failed, none had failed before, and the Service is no
more gone. -/
theorem May.intact {r : Request} {reply : r.Reply} (h : May s r reply t)
    (ht : t.failed = false) : s.failed = false ∧ t.gone = s.gone := by
  have hsame : t = s → s.failed = false ∧ t.gone = s.gone := by
    rintro rfl
    exact ⟨ht, rfl⟩
  have hfailed : ∀ gone, t = { s with failed := true, gone := gone } →
      s.failed = false ∧ t.gone = s.gone := by
    rintro gone rfl
    exact absurd ht (by simp)
  cases r with
  | store call =>
      cases call with
      | list =>
          cases reply with
          | ok _ => exact hsame h
          | error _ => exact hfailed _ h
      | get key =>
          cases reply with
          | ok _ => exact hsame h.2
          | error _ => exact hfailed _ h
      | patch key change =>
          cases reply with
          | ok _ =>
              have hpatched : if key = s.object.key then
                  s.gone = false ∧ ∃ object, Patched change s.object object ∧
                    t = { s with object := object }
                else t = s := h
              split at hpatched
              · obtain ⟨-, object, -, rfl⟩ := hpatched
                exact ⟨ht, rfl⟩
              · exact hsame hpatched
          | error _ => exact hfailed _ h
  | now =>
      obtain ⟨-, rfl⟩ := h
      exact ⟨ht, rfl⟩
  | router _ | memory _ | publish _ _ | cancelled | lock _ | unlock _ => exact hsame h

theorem May.key {r : Request} {reply : r.Reply} (h : May s r reply t) :
    t.object.key = s.object.key := by
  have hsame : t = s → t.object.key = s.object.key := by
    rintro rfl
    rfl
  cases r with
  | store call =>
      cases call with
      | list =>
          cases reply with
          | ok _ => exact hsame h
          | error _ =>
              obtain rfl : t = { s with failed := true } := h
              rfl
      | get key =>
          cases reply with
          | ok _ => exact hsame h.2
          | error e =>
              obtain rfl : t = { s with
                failed := true,
                gone := s.gone || (e.isNotFound && decide (key = s.object.key)) } := h
              rfl
      | patch key change =>
          cases reply with
          | ok _ =>
              have hpatched : if key = s.object.key then
                  s.gone = false ∧ ∃ object, Patched change s.object object ∧
                    t = { s with object := object }
                else t = s := h
              split at hpatched
              · obtain ⟨-, object, hobject, rfl⟩ := hpatched
                exact hobject.key
              · exact hsame hpatched
          | error _ =>
              obtain rfl : t = { s with failed := true } := h
              rfl
  | now =>
      obtain ⟨-, rfl⟩ := h
      rfl
  | router _ | memory _ | publish _ _ | cancelled | lock _ | unlock _ => exact hsame h

theorem gone_of_leads {α : Type} {script : Script α} {a : α}
    (h : Leads May script s a t) (ht : t.failed = false) : t.gone = s.gone := by
  have hkept := h.preserves (P := fun u => u.failed = false → u.gone = s.gone)
    (fun {u r reply v} hu hmay hv => by
      obtain ⟨hfailed, hgone⟩ := May.intact hmay hv
      exact hgone.trans (hu hfailed)) fun _ => rfl
  exact hkept ht

theorem may_get {key : ServiceKey} {reply : Except StoreError ServiceObject}
    (hkey : key = s.object.key) (h : May s (.store (.get key)) reply t) :
    (reply = .ok s.object ∧ s.gone = false ∧ t = s) ∨
      ∃ e, reply = .error e ∧
        t = { s with failed := true, gone := s.gone || e.isNotFound } := by
  cases reply with
  | ok object =>
      obtain ⟨hsame, rfl⟩ := h
      obtain ⟨hgone, rfl⟩ := hsame hkey
      exact Or.inl ⟨rfl, hgone, rfl⟩
  | error e =>
      refine Or.inr ⟨e, rfl, ?_⟩
      have ht : t = { s with
        failed := true,
        gone := s.gone || (e.isNotFound && decide (key = s.object.key)) } := h
      rw [ht, decide_eq_true hkey, Bool.and_true]

theorem may_patch {key : ServiceKey} {reply : Except StoreError Unit}
    (hkey : key = s.object.key) (h : May s (.store (.patch key change)) reply t) :
    (reply = .ok () ∧ ∃ object, Patched change s.object object ∧
      t = { s with object := object }) ∨
      ∃ e, reply = .error e ∧ t = { s with failed := true } := by
  cases reply with
  | ok u =>
      have hpatched : if key = s.object.key then
          s.gone = false ∧ ∃ object, Patched change s.object object ∧
            t = { s with object := object }
        else t = s := h
      rw [if_pos hkey] at hpatched
      exact Or.inl ⟨rfl, hpatched.2⟩
  | error e => exact Or.inr ⟨e, rfl, h⟩

/-- A request that has nothing to do with the Service leaves it as it is. -/
theorem Apart.ensures {α : Type} {script : Script α} (hasks : Asks Apart script)
    (s : Stored) :
    Ensures May Eq (fun _ _ _ => True) (fun _ t => t = s) script s := by
  refine hasks.ensures ?_ ?_ rfl
  · rintro t u rfl rfl
    rfl
  · rintro t r reply u hr rfl hmay
    exact ⟨trivial, hr.may hmay⟩

/-! ## An API that does what it is asked -/

def refusal : (call : RouterCall) → call.Reply
  | .list | .add _ | .update _ _ | .remove _ | .ready => .error (.unreachable "down")

/-- The API makes every change, the router takes no calls, and the clock
shows `time`. -/
def answer (time : Timestamp) : Surroundings Stored := fun r s =>
  match r with
  | .store (.get key) =>
    if key = s.object.key ∧ s.gone = false then (.ok s.object, s)
    else (.error (.refused 404 "not found"), { s with
      failed := true, gone := s.gone || decide (key = s.object.key) })
  | .store (.patch key change) =>
    if s.gone = true then (.error (.refused 404 "not found"), { s with failed := true })
    else if key = s.object.key then (.ok (), { s with object := s.object.patch change })
    else (.ok (), s)
  | .store .list => (.ok [], s)
  | .router call => (refusal call, s)
  | .memory call => ((call.answer 0 .empty).1, s)
  | .now => (time, { s with clock := time.instant })
  | .publish _ _ | .lock _ | .unlock _ => ((), s)
  | .cancelled => (false, s)

theorem answer_may {time : Timestamp} (htime : time.Reading) (r : Request)
    (s : Stored) : May s r (answer time r s).1 (answer time r s).2 := by
  cases r with
  | store call =>
      cases call with
      | list => exact rfl
      | get key =>
          by_cases h : key = s.object.key ∧ s.gone = false
          · simp only [answer, if_pos h]
            exact ⟨fun _ => ⟨h.2, rfl⟩, rfl⟩
          · simp only [answer, if_neg h]
            show _ = _
            simp [StoreError.isNotFound]
      | patch key change =>
          by_cases hgone : s.gone = true
          · simp only [answer, if_pos hgone]
            exact (rfl : { s with failed := true } = { s with failed := true })
          · by_cases hkey : key = s.object.key
            · simp only [answer, if_neg hgone, if_pos hkey]
              show if key = s.object.key then _ else _
              rw [if_pos hkey]
              exact ⟨Bool.eq_false_iff.mpr hgone, _, patched_patch change s.object, rfl⟩
            · simp only [answer, if_neg hgone, if_neg hkey]
              show if key = s.object.key then _ else _
              rw [if_neg hkey]
  | now => exact ⟨htime, rfl⟩
  | router _ | memory _ | publish _ _ | cancelled | lock _ | unlock _ => exact rfl

/-! ## Marks -/

variable {step : Stored → Exchange → Stored → Prop} {key : ServiceKey}

theorem annotate_ensures {changes : List (String × Option String)}
    (hne : changes ≠ []) (hkey : key = s.object.key)
    {post : Except StoreError Unit → Stored → Prop}
    (hok : ∀ object, Patched (.annotations changes) s.object object →
      step s ⟨.store (.patch key (.annotations changes)), .ok ()⟩
          { s with object := object } ∧
        post (.ok ()) { s with object := object })
    (herror : ∀ e,
      step s ⟨.store (.patch key (.annotations changes)), .error e⟩
          { s with failed := true } ∧
        post (.error e) { s with failed := true }) :
    Ensures May Eq step post (Mark.annotate key changes).run s := by
  unfold Mark.annotate
  rw [if_neg (by simpa using hne)]
  refine ensures_request (r := .store (.patch key (.annotations changes))) ?_
  rintro _ rfl reply t hmay
  rcases may_patch hkey hmay with ⟨rfl, object, hpatched, rfl⟩ | ⟨e, rfl, rfl⟩
  · exact hok object hpatched
  · exact herror e

def Untouching : Request → Prop
  | .store (.get _) | .store (.patch _ (.finalizers _)) => True
  | _ => False

def Unheld (s : Stored) (r : Except StoreError Unit) (t : Stored) : Prop :=
  Marked s.object t.object ∧ t.object.annotations = s.object.annotations ∧
    match r with
    | .ok () => t.Released
    | .error _ => t.failed = true

theorem unheld_failed {e : StoreError} (hobject : t.object = s.object)
    (hfailed : t.failed = true) : Unheld s (.error e) t :=
  ⟨hobject ▸ .refl _, by rw [hobject], hfailed⟩

/-- The finalizers are read: as they are, none where the Service is gone. -/
theorem currentFinalizers_ensures (hkey : key = s.object.key)
    (hstep : ∀ {u x v}, Untouching x.1 → u.object.annotations = s.object.annotations →
      v.object.annotations = s.object.annotations → step u x v) :
    Ensures May Eq step (fun r t => t.object = s.object ∧ match r with
      | .ok names => names = s.object.finalizers ∨ names = [] ∧ t.gone = true
      | .error _ => t.failed = true) (Mark.currentFinalizers key).run s := by
  refine Ensures.bind (ensures_request (r := .store (.get key)) ?_)
  rintro _ rfl reply t hmay
  rcases may_get hkey hmay with ⟨rfl, hgone, rfl⟩ | ⟨e, rfl, rfl⟩
  · exact ⟨hstep trivial rfl rfl, ensures_done ⟨rfl, Or.inl rfl⟩⟩
  · refine ⟨hstep trivial rfl rfl, ?_⟩
    cases hfound : e.isNotFound with
    | true =>
        simp only [hfound, if_true]
        exact ensures_done ⟨rfl, Or.inr ⟨rfl, Bool.or_true _⟩⟩
    | false =>
        simp only [hfound]
        exact ensures_done ⟨rfl, rfl⟩

theorem removeFinalizer_ensures (hkey : key = s.object.key)
    (hstep : ∀ {u x v}, Untouching x.1 → u.object.annotations = s.object.annotations →
      v.object.annotations = s.object.annotations → step u x v) :
    Ensures May Eq step (Unheld s) (Mark.removeFinalizer key).run s := by
  refine (currentFinalizers_ensures hkey hstep).andThenTry ?_ ?_
  · rintro names t ⟨hobject, hnames⟩
    by_cases hheld : names.contains Mark.finalizer
    · rw [if_pos hheld]
      refine ensures_request
        (r := .store (.patch key (.finalizers (Mark.withoutOwn names)))) ?_
      rintro _ rfl reply u hmay
      have hannotations : t.object.annotations = s.object.annotations := by rw [hobject]
      rcases may_patch (hobject ▸ hkey) hmay with
        ⟨rfl, object, hpatched, rfl⟩ | ⟨e, rfl, rfl⟩
      · rw [hobject] at hpatched
        obtain rfl : object =
            { s.object with finalizers := Mark.withoutOwn names } := hpatched
        refine ⟨hstep trivial hannotations rfl, ⟨rfl, fun _ _ => rfl⟩, rfl, Or.inr ?_⟩
        simp [Mark.withoutOwn]
      · exact ⟨hstep trivial hannotations hannotations, unheld_failed hobject rfl⟩
    · rw [if_neg hheld]
      refine ensures_done ⟨hobject ▸ .refl _, by rw [hobject], ?_⟩
      rcases hnames with rfl | ⟨-, hgone⟩
      · exact Or.inr (by simpa [hobject] using hheld)
      · exact Or.inl hgone
  · rintro e t ⟨hobject, hfailed⟩
    exact unheld_failed hobject hfailed

end Stored

end PortForwarding
