import PortForwarding.Script

/-!
# Where a script may lead

`Script.run` needs surroundings that are a function. Most statements are about
surroundings of which only the rules are known: a call may fail or not, an
identifier is a new one but nobody says which. Such surroundings are a relation
(`Possible`), and `Leads` relates a script and the state before it to the results
and states that it may lead to.

The equations below take a script apart along its binds, so that a proof about a
pass goes from one named intermediate state to the next. `Leads.preserves` is the
induction for invariants; `Asks` says what a script ever asks for, whatever it is
answered.
-/

namespace PortForwarding.Script

variable {α β γ σ ε ε' : Type}

/-- Surroundings by their rules: the replies to a request in a state, each with a
state after it. -/
abbrev Possible (σ : Type) := σ → (r : Request) → r.Reply → σ → Prop

/-- The script may lead from one state to a result and another state. -/
inductive Leads (may : Possible σ) : Script α → σ → α → σ → Prop where
  | done (a : α) (s : σ) : Leads may (.done a) s a s
  | ask {r : Request} {next : r.Reply → Script α} {reply : r.Reply} {s t u : σ} {a : α}
      (now : may s r reply t) (later : Leads may (next reply) t a u) :
      Leads may (.ask r next) s a u

variable {may : Possible σ} {s s' u : σ}

/-! ## One step at a time -/

@[simp] theorem leads_done {a b : α} :
    Leads may (.done a) s b s' ↔ b = a ∧ s' = s := by
  constructor
  · rintro ⟨⟩
    exact ⟨rfl, rfl⟩
  · rintro ⟨rfl, rfl⟩
    exact .done _ _

theorem leads_ask {r : Request} {next : r.Reply → Script α} {a : α} :
    Leads may (.ask r next) s a u ↔
      ∃ reply t, may s r reply t ∧ Leads may (next reply) t a u := by
  constructor
  · rintro ⟨⟩
    exact ⟨_, _, ‹_›, ‹_›⟩
  · rintro ⟨reply, t, now, later⟩
    exact .ask now later

@[simp] theorem leads_request {r : Request} {reply : r.Reply} :
    Leads may (request r) s reply s' ↔ may s r reply s' := by
  unfold request
  rw [leads_ask]
  constructor
  · rintro ⟨reply', t, now, later⟩
    obtain ⟨rfl, rfl⟩ := leads_done.mp later
    exact now
  · intro now
    exact ⟨reply, s', now, .done _ _⟩

theorem leads_bind {t : Script α} {f : α → Script β} {b : β} :
    Leads may (t.bind f) s b u ↔
      ∃ a s', Leads may t s a s' ∧ Leads may (f a) s' b u := by
  induction t generalizing s with
  | done a =>
      constructor
      · intro h
        exact ⟨a, s, .done _ _, h⟩
      · rintro ⟨a', s', h, hf⟩
        obtain ⟨rfl, rfl⟩ := leads_done.mp h
        exact hf
  | ask r next ih =>
      rw [ask_bind, leads_ask]
      constructor
      · rintro ⟨reply, t, now, later⟩
        obtain ⟨a, s', h, hf⟩ := (ih reply).mp later
        exact ⟨a, s', .ask now h, hf⟩
      · rintro ⟨a, s', h, hf⟩
        obtain ⟨reply, t, now, later⟩ := leads_ask.mp h
        exact ⟨reply, t, now, (ih reply).mpr ⟨a, s', later, hf⟩⟩

/-! ## Scripts that may fail -/

theorem run_tryBind {x : ExceptT ε Script α} {f : α → ExceptT ε Script β} :
    (x >>= f).run = x.run.bind fun
      | .ok a => (f a).run
      | .error e => .done (.error e) := by
  show (ExceptT.bind x f).run = _
  unfold ExceptT.bind ExceptT.run ExceptT.mk
  congr 1
  funext r
  cases r <;> rfl

theorem run_adapt {x : ExceptT ε Script α} {f : ε → ε'} :
    (x.adapt f).run = x.run.bind fun a => .done (a.mapError f) :=
  rfl

theorem run_lift {x : Script α} :
    (liftM x : ExceptT ε Script α).run = x.bind fun a => .done (.ok a) :=
  rfl

theorem leads_tryBind {x : ExceptT ε Script α} {f : α → ExceptT ε Script β}
    {b : Except ε β} :
    Leads may (x >>= f).run s b u ↔
      (∃ a s', Leads may x.run s (.ok a) s' ∧ Leads may (f a).run s' b u) ∨
      (∃ e, Leads may x.run s (.error e) u ∧ b = .error e) := by
  rw [run_tryBind, leads_bind]
  constructor
  · rintro ⟨r, s', h, hf⟩
    cases r with
    | ok a => exact Or.inl ⟨a, s', h, hf⟩
    | error e =>
        obtain ⟨rfl, rfl⟩ := leads_done.mp hf
        exact Or.inr ⟨e, h, rfl⟩
  · rintro (⟨a, s', h, hf⟩ | ⟨e, h, rfl⟩)
    · exact ⟨.ok a, s', h, hf⟩
    · exact ⟨.error e, u, h, .done _ _⟩

@[simp] theorem leads_tryPure {a : α} {b : Except ε α} :
    Leads may (pure a : ExceptT ε Script α).run s b s' ↔ b = .ok a ∧ s' = s :=
  leads_done

theorem leads_tryMap {x : ExceptT ε Script α} {f : α → β} {b : Except ε β} :
    Leads may (x >>= fun a => pure (f a)).run s b u ↔
      ∃ a, Leads may x.run s a u ∧ b = a.map f := by
  rw [leads_tryBind]
  constructor
  · rintro (⟨a, s', h, hpure⟩ | ⟨e, h, rfl⟩)
    · obtain ⟨rfl, rfl⟩ := leads_tryPure.mp hpure
      exact ⟨.ok a, h, rfl⟩
    · exact ⟨.error e, h, rfl⟩
  · rintro ⟨a, h, rfl⟩
    cases a with
    | ok a => exact Or.inl ⟨a, u, h, leads_tryPure.mpr ⟨rfl, rfl⟩⟩
    | error e => exact Or.inr ⟨e, h, rfl⟩

theorem leads_adapt {x : ExceptT ε Script α} {f : ε → ε'} {b : Except ε' α} :
    Leads may (x.adapt f).run s b s' ↔
      ∃ a, Leads may x.run s a s' ∧ b = a.mapError f := by
  rw [run_adapt, leads_bind]
  constructor
  · rintro ⟨a, t, h, hf⟩
    obtain ⟨rfl, rfl⟩ := leads_done.mp hf
    exact ⟨a, h, rfl⟩
  · rintro ⟨a, h, rfl⟩
    exact ⟨a, s', h, .done _ _⟩

theorem leads_lift {x : Script α} {b : Except ε α} :
    Leads may (liftM x : ExceptT ε Script α).run s b s' ↔
      ∃ a, Leads may x s a s' ∧ b = .ok a := by
  rw [run_lift, leads_bind]
  constructor
  · rintro ⟨a, t, h, hf⟩
    obtain ⟨rfl, rfl⟩ := leads_done.mp hf
    exact ⟨a, h, rfl⟩
  · rintro ⟨a, h, rfl⟩
    exact ⟨a, s', h, .done _ _⟩

/-! ## Scripts that have succeeded -/

theorem leads_tryBind_ok {x : ExceptT ε Script α} {f : α → ExceptT ε Script β}
    {b : β} :
    Leads may (x >>= f).run s (.ok b) u ↔
      ∃ a s', Leads may x.run s (.ok a) s' ∧ Leads may (f a).run s' (.ok b) u := by
  rw [leads_tryBind]
  constructor
  · rintro (h | ⟨e, -, heq⟩)
    · exact h
    · exact absurd heq (by simp)
  · exact Or.inl

theorem leads_adapt_ok {x : ExceptT ε Script α} {f : ε → ε'} {a : α} :
    Leads may (x.adapt f).run s (.ok a) s' ↔ Leads may x.run s (.ok a) s' := by
  rw [leads_adapt]
  constructor
  · rintro ⟨r, h, heq⟩
    cases r with
    | ok b =>
        obtain rfl := Except.ok.inj heq
        exact h
    | error e =>
        have hfailed : Except.ok a = .error (f e) := heq
        exact absurd hfailed (by simp)
  · intro h
    exact ⟨.ok a, h, rfl⟩

theorem leads_adapt_error {x : ExceptT ε Script α} {f : ε → ε'} {e : ε'} :
    Leads may (x.adapt f).run s (.error e) s' ↔
      ∃ cause, Leads may x.run s (.error cause) s' ∧ e = f cause := by
  rw [leads_adapt]
  constructor
  · rintro ⟨r, h, heq⟩
    cases r with
    | ok a =>
        have hsucceeded : Except.error e = .ok a := heq
        exact absurd hsucceeded (by simp)
    | error cause => exact ⟨cause, h, Except.error.inj heq⟩
  · rintro ⟨cause, h, rfl⟩
    exact ⟨.error cause, h, rfl⟩

theorem leads_lift_ok {x : Script α} {a : α} :
    Leads may (liftM x : ExceptT ε Script α).run s (.ok a) s' ↔
      Leads may x s a s' := by
  rw [leads_lift]
  constructor
  · rintro ⟨b, h, heq⟩
    obtain rfl := Except.ok.inj heq
    exact h
  · intro h
    exact ⟨a, h, rfl⟩

/-! ## Requests by name -/

theorem leads_listRules {r : Except RouterError (List RouterRule)} :
    Leads may listRules.run s r s' ↔ may s (.router .list) r s' :=
  leads_request (r := .router .list)

theorem leads_addRule {spec : RuleSpec} {r : Except RouterError RouterRule} :
    Leads may (addRule spec).run s r s' ↔ may s (.router (.add spec)) r s' :=
  leads_request (r := .router (.add spec))

theorem leads_updateRule {id : String} {spec : RuleSpec}
    {r : Except RouterError RouterRule} :
    Leads may (updateRule id spec).run s r s' ↔
      may s (.router (.update id spec)) r s' :=
  leads_request (r := .router (.update id spec))

theorem leads_removeRule {id : String} {r : Except RouterError Unit} :
    Leads may (removeRule id).run s r s' ↔ may s (.router (.remove id)) r s' :=
  leads_request (r := .router (.remove id))

theorem leads_isCancelled {seen : Bool} :
    Leads may isCancelled s seen s' ↔ may s .cancelled seen s' :=
  leads_request (r := .cancelled)

theorem leads_memory {call : MemoryCall} {r : call.Reply} :
    Leads may (memory call) s r s' ↔ may s (.memory call) r s' :=
  leads_request (r := .memory call)

/-! ## Invariants -/

theorem Leads.preserves {P : σ → Prop} {t : Script α} {a : α} (h : Leads may t s a s')
    (step : ∀ {s r reply s'}, P s → may s r reply s' → P s') (hs : P s) : P s' := by
  induction h with
  | done a s => exact hs
  | ask now later ih => exact ih (step hs now)

/-- The script asks for nothing but what `Q` allows, whatever it is answered. -/
def Asks (Q : Request → Prop) : Script α → Prop
  | .done _ => True
  | .ask r next => Q r ∧ ∀ reply, Asks Q (next reply)

variable {Q : Request → Prop}

theorem asks_request {r : Request} (h : Q r) : Asks Q (request r) :=
  ⟨h, fun _ => trivial⟩

theorem Asks.bind {t : Script α} {f : α → Script β} (ht : Asks Q t)
    (hf : ∀ a, Asks Q (f a)) : Asks Q (t.bind f) := by
  induction t with
  | done a => exact hf a
  | ask r next ih => exact ⟨ht.1, fun reply => ih reply (ht.2 reply)⟩

/-- Whatever the steps that a script asks for preserve, the script preserves. -/
theorem Leads.preserves_of_asks {P : σ → Prop} {t : Script α} {a : α}
    (h : Leads may t s a s') (asks : Asks Q t)
    (step : ∀ {s r reply s'}, Q r → P s → may s r reply s' → P s') (hs : P s) :
    P s' := by
  induction h with
  | done a s => exact hs
  | ask now later ih => exact ih (asks.2 _) (step asks.1 hs now)

end PortForwarding.Script
