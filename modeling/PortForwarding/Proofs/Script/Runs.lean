import PortForwarding.Proofs.Script.Ensures

/-!
# What a script is answered

`Script.Runs` knows of no surroundings: any reply may come to any request. A run
is taken apart here along the binds of its script, and its exchanges with it, so
that what is said of a run is said of whatever the router, the API, the memory,
the clock and the signal to stop may answer.
-/

namespace PortForwarding.Script

variable {α β σ τ ε ε' : Type} {log : List Exchange}

/-! ## One step at a time -/

@[simp] theorem runs_done {a b : α} : Runs (.done a) log b ↔ b = a ∧ log = [] := by
  constructor
  · rintro ⟨⟩
    exact ⟨rfl, rfl⟩
  · rintro ⟨rfl, rfl⟩
    exact .done _

theorem runs_ask {r : Request} {next : r.Reply → Script α} {a : α} :
    Runs (.ask r next) log a ↔
      ∃ reply rest, log = ⟨r, reply⟩ :: rest ∧ Runs (next reply) rest a := by
  constructor
  · rintro ⟨⟩
    exact ⟨_, _, rfl, ‹_›⟩
  · rintro ⟨reply, rest, rfl, h⟩
    exact .ask h

theorem runs_request {r : Request} {reply : r.Reply} :
    Runs (request r) log reply ↔ log = [⟨r, reply⟩] := by
  unfold request
  rw [runs_ask]
  constructor
  · rintro ⟨reply', rest, rfl, h⟩
    obtain ⟨rfl, rfl⟩ := runs_done.mp h
    rfl
  · rintro rfl
    exact ⟨reply, [], rfl, .done _⟩

theorem runs_bind {t : Script α} {f : α → Script β} {b : β} :
    Runs (t.bind f) log b ↔
      ∃ before a after, log = before ++ after ∧ Runs t before a ∧
        Runs (f a) after b := by
  induction t generalizing log with
  | done a =>
      constructor
      · intro h
        exact ⟨[], a, log, rfl, .done a, h⟩
      · rintro ⟨before, a', after, rfl, h, hf⟩
        obtain ⟨rfl, rfl⟩ := runs_done.mp h
        exact hf
  | ask r next ih =>
      rw [ask_bind, runs_ask]
      constructor
      · rintro ⟨reply, rest, rfl, h⟩
        obtain ⟨before, a, after, rfl, hnext, hf⟩ := (ih reply).mp h
        exact ⟨⟨r, reply⟩ :: before, a, after, rfl, .ask hnext, hf⟩
      · rintro ⟨before, a, after, rfl, h, hf⟩
        obtain ⟨reply, rest, rfl, hnext⟩ := runs_ask.mp h
        exact ⟨reply, rest ++ after, rfl, (ih reply).mpr ⟨rest, a, after, rfl, hnext, hf⟩⟩

/-! ## Scripts that may fail -/

theorem runs_tryBind {x : ExceptT ε Script α} {f : α → ExceptT ε Script β}
    {b : Except ε β} :
    Runs (x >>= f).run log b ↔
      (∃ before a after, log = before ++ after ∧ Runs x.run before (.ok a) ∧
        Runs (f a).run after b) ∨
      (∃ e, Runs x.run log (.error e) ∧ b = .error e) := by
  rw [run_tryBind, runs_bind]
  constructor
  · rintro ⟨before, r, after, rfl, h, hf⟩
    cases r with
    | ok a => exact Or.inl ⟨before, a, after, rfl, h, hf⟩
    | error e =>
        obtain ⟨rfl, rfl⟩ := runs_done.mp hf
        exact Or.inr ⟨e, (List.append_nil before).symm ▸ h, rfl⟩
  · rintro (⟨before, a, after, rfl, h, hf⟩ | ⟨e, h, rfl⟩)
    · exact ⟨before, .ok a, after, rfl, h, hf⟩
    · exact ⟨log, .error e, [], (List.append_nil log).symm, h, .done _⟩

theorem runs_adapt {x : ExceptT ε Script α} {f : ε → ε'} {b : Except ε' α} :
    Runs (x.adapt f).run log b ↔ ∃ a, Runs x.run log a ∧ b = a.mapError f := by
  rw [run_adapt, runs_bind]
  constructor
  · rintro ⟨before, a, after, rfl, h, hf⟩
    obtain ⟨rfl, rfl⟩ := runs_done.mp hf
    exact ⟨a, (List.append_nil before).symm ▸ h, rfl⟩
  · rintro ⟨a, h, rfl⟩
    exact ⟨log, a, [], (List.append_nil log).symm, h, .done _⟩

theorem runs_adapt_ok {x : ExceptT ε Script α} {f : ε → ε'} {a : α} :
    Runs (x.adapt f).run log (.ok a) ↔ Runs x.run log (.ok a) := by
  rw [runs_adapt]
  constructor
  · rintro ⟨r, h, heq⟩
    cases r with
    | ok b =>
        obtain rfl := Except.ok.inj heq
        exact h
    | error e =>
        have hfailed : Except.ok a = .error (f e) := heq
        exact absurd hfailed (by simp)
  · intro h
    exact ⟨.ok a, h, rfl⟩

theorem runs_adapt_error {x : ExceptT ε Script α} {f : ε → ε'} {e' : ε'} :
    Runs (x.adapt f).run log (.error e') ↔
      ∃ e, Runs x.run log (.error e) ∧ e' = f e := by
  rw [runs_adapt]
  constructor
  · rintro ⟨r, h, heq⟩
    cases r with
    | ok b =>
        have hfailed : (.error e' : Except ε' α) = .ok b := heq
        exact absurd hfailed (by simp)
    | error e => exact ⟨e, h, Except.error.inj heq⟩
  · rintro ⟨e, h, rfl⟩
    exact ⟨.error e, h, rfl⟩

theorem runs_liftThen {x : Script α} {f : α → ExceptT ε Script β} {b : Except ε β} :
    Runs ((liftM x : ExceptT ε Script α) >>= f).run log b ↔
      ∃ before a after, log = before ++ after ∧ Runs x before a ∧
        Runs (f a).run after b := by
  rw [run_tryBind, run_lift, bind_assoc, runs_bind]
  rfl

theorem runs_tryBind_ok {x : ExceptT ε Script α} {f : α → ExceptT ε Script β}
    {b : β} :
    Runs (x >>= f).run log (.ok b) ↔
      ∃ before a after, log = before ++ after ∧ Runs x.run before (.ok a) ∧
        Runs (f a).run after (.ok b) := by
  rw [runs_tryBind]
  constructor
  · rintro (h | ⟨e, -, heq⟩)
    · exact h
    · exact absurd heq (by simp)
  · exact Or.inl

theorem runs_locked {key : ServiceKey} {body : Script α} {a : α} :
    Runs (locked key body) log a ↔
      ∃ during, log = ⟨.lock key, ()⟩ :: (during ++ [⟨.unlock key, ()⟩]) ∧
        Runs body during a := by
  constructor
  · intro h
    obtain ⟨_, ⟨⟩, _, rfl, hlock, hrest⟩ := runs_bind.mp h
    obtain rfl := runs_request.mp hlock
    obtain ⟨during, b, _, rfl, hbody, hend⟩ := runs_bind.mp hrest
    obtain ⟨_, ⟨⟩, _, rfl, hunlock, hdone⟩ := runs_bind.mp hend
    obtain rfl := runs_request.mp hunlock
    obtain ⟨rfl, rfl⟩ := runs_done.mp hdone
    exact ⟨during, rfl, hbody⟩
  · rintro ⟨during, rfl, hbody⟩
    have hend : Runs (request (.unlock key) >>= fun _ => pure a) [⟨.unlock key, ()⟩] a :=
      runs_bind.mpr ⟨_, (), [], rfl, runs_request.mpr rfl, .done a⟩
    refine runs_bind.mpr ⟨_, (), _, rfl, runs_request.mpr rfl, ?_⟩
    exact runs_bind.mpr ⟨during, a, _, rfl, hbody, hend⟩

/-! ## Requests by name -/

theorem runs_isCancelled {seen : Bool} :
    Runs isCancelled log seen ↔ log = [⟨.cancelled, seen⟩] :=
  runs_request (r := .cancelled)

theorem runs_listRules {reply : Except RouterError (List RouterRule)} :
    Runs listRules.run log reply ↔ log = [⟨.router .list, reply⟩] :=
  runs_request (r := .router .list)

theorem runs_addRule {spec : RuleSpec} {reply : Except RouterError RouterRule} :
    Runs (addRule spec).run log reply ↔ log = [⟨.router (.add spec), reply⟩] :=
  runs_request (r := .router (.add spec))

theorem runs_updateRule {id : String} {spec : RuleSpec}
    {reply : Except RouterError RouterRule} :
    Runs (updateRule id spec).run log reply ↔
      log = [⟨.router (.update id spec), reply⟩] :=
  runs_request (r := .router (.update id spec))

theorem runs_removeRule {id : String} {reply : Except RouterError Unit} :
    Runs (removeRule id).run log reply ↔ log = [⟨.router (.remove id), reply⟩] :=
  runs_request (r := .router (.remove id))

/-! ## What is asked in a run -/

theorem Asks.runs {Q : Request → Prop} {script : Script α} {a : α}
    (hasks : Asks Q script) (h : Runs script log a) : ∀ x ∈ log, Q x.1 := by
  induction h with
  | done a =>
      intro x hx
      exact absurd hx List.not_mem_nil
  | ask h ih =>
      intro x hx
      rcases List.mem_cons.mp hx with rfl | hx
      · exact hasks.1
      · exact ih (hasks.2 _) x hx

theorem runs_trace (answer : Surroundings σ) (script : Script α) (s : σ) :
    Runs script ((trace answer script s).map Prod.fst) (run answer script s).1 := by
  induction script generalizing s with
  | done a => exact .done a
  | ask r next ih => exact .ask (ih _ _)

theorem Course.exists_runs {may : Possible σ} {script : Script α}
    {steps : List (Exchange × σ)} {result : Option α} {s t : σ}
    (h : Course may script s steps result t) (answer : Surroundings σ) :
    ∃ rest a, Runs script (steps.map Prod.fst ++ rest) a := by
  induction h with
  | stop script s => exact ⟨_, _, runs_trace answer script s⟩
  | done a s => exact ⟨[], a, .done a⟩
  | ask now later ih =>
      obtain ⟨rest, a, hrest⟩ := ih
      exact ⟨rest, a, .ask hrest⟩

/-! ## What comes before what -/

section

variable {kind : Request → Prop} {enough : List Exchange → Prop}
  {rest : List Exchange}

/-- Enough has been exchanged before each exchange of a kind. -/
def Preceded (kind : Request → Prop) (enough : List Exchange → Prop)
    (log : List Exchange) : Prop :=
  ∀ before x after, log = before ++ x :: after → kind x.1 → enough before

theorem Preceded.of_append (h : Preceded kind enough (log ++ rest)) :
    Preceded kind enough log := by
  rintro before x after rfl hx
  exact h before x (after ++ rest) (by simp) hx

theorem preceded_of_none (h : ∀ x ∈ log, ¬kind x.1) : Preceded kind enough log := by
  rintro before x after rfl hx
  exact absurd hx (h x (List.mem_append_right _ List.mem_cons_self))

theorem preceded_append
    (hmono : ∀ before more, enough before → enough (before ++ more))
    (hlog : ∀ x ∈ log, ¬kind x.1) (henough : enough log) :
    Preceded kind enough (log ++ rest) := by
  intro before x after heq hx
  rcases List.append_eq_append_iff.mp heq with ⟨more, rfl, -⟩ | ⟨more, rfl, hmore⟩
  · exact hmono log more henough
  · cases more with
    | nil => exact (List.append_nil before).symm ▸ henough
    | cons y more =>
        obtain ⟨rfl, -⟩ := List.cons.inj hmore
        exact absurd hx (hlog x (List.mem_append_right _ List.mem_cons_self))

end

/-! ## Who gives the replies -/

/-- Surroundings may give these replies, one after another, going from one state
to another. -/
inductive Answered (may : Possible σ) : σ → List Exchange → σ → Prop
  | nil (s : σ) : Answered may s [] s
  | cons {r : Request} {reply : r.Reply} {s t u : σ} {log : List Exchange}
      (now : may s r reply t)
      (later : Answered may t log u) : Answered may s (⟨r, reply⟩ :: log) u

section

variable {may : Possible σ} {s t u : σ} {log' : List Exchange}

theorem answered_nil : Answered may s [] t ↔ t = s := by
  constructor
  · rintro ⟨⟩
    rfl
  · rintro rfl
    exact .nil t

theorem answered_cons {x : Exchange} :
    Answered may s (x :: log) u ↔ ∃ t, may s x.1 x.2 t ∧ Answered may t log u := by
  constructor
  · rintro ⟨⟩
    exact ⟨_, ‹_›, ‹_›⟩
  · rintro ⟨t, now, later⟩
    exact .cons now later

theorem answered_append :
    Answered may s (log ++ log') u ↔
      ∃ t, Answered may s log t ∧ Answered may t log' u := by
  induction log generalizing s with
  | nil =>
      constructor
      · intro h
        exact ⟨s, .nil s, h⟩
      · rintro ⟨t, h, h'⟩
        obtain rfl := answered_nil.mp h
        exact h'
  | cons x log ih =>
      rw [List.cons_append, answered_cons]
      constructor
      · rintro ⟨v, now, later⟩
        obtain ⟨t, h, h'⟩ := ih.mp later
        exact ⟨t, .cons now h, h'⟩
      · rintro ⟨t, h, h'⟩
        obtain ⟨v, now, later⟩ := answered_cons.mp h
        exact ⟨v, now, ih.mpr ⟨t, later, h'⟩⟩

/-- Whatever each of the exchanges preserves is preserved by all of them. -/
theorem Answered.preserves {P : σ → Prop} (h : Answered may s log t)
    (step : ∀ {s x t}, x ∈ log → P s → may s x.1 x.2 t → P t) (hs : P s) : P t := by
  induction h with
  | nil s => exact hs
  | cons now later ih =>
      exact ih (fun hx => step (List.mem_cons_of_mem _ hx))
        (step List.mem_cons_self hs now)

/-- The replies to a run are those that a part of the surroundings gives, where
what it takes for that is preserved. -/
theorem answered_trace {answer : Surroundings τ} {f : τ → σ} {P : τ → Prop}
    (hmay : ∀ r x, P x → may (f x) r (answer r x).1 (f (answer r x).2))
    (hkept : ∀ r x, P x → P (answer r x).2) (script : Script α) {x : τ} (hx : P x) :
    Answered may (f x) ((trace answer script x).map Prod.fst)
      (f (run answer script x).2) := by
  induction script generalizing x with
  | done a => exact .nil (f x)
  | ask r next ih => exact .cons (hmay r x hx) (ih _ (hkept r x hx))

end

end PortForwarding.Script
