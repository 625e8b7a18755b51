import PortForwarding.Proofs.Script.Leads

/-!
# What a script ensures

`Ensures` follows a script through all the replies that it may get. It says of
every step what the step does (`step`) and of the end what has come of it
(`post`), and it lets others act before each step, as far as `rely` allows. With
`Eq` for `rely` the script is alone.

A script that is stopped before its end has still taken its steps: `Course` are
the runs that may stop after any request, and `Course.of_ensures` is what is known
of them.
-/

namespace PortForwarding.Script

variable {α β σ ε ε' : Type}

/-- From this state on, every step of the script is as `step` says, and `post`
holds of its result and of the state in which it ends. -/
def Ensures (may : Possible σ) (rely : σ → σ → Prop) (step : σ → Exchange → σ → Prop)
    (post : α → σ → Prop) : Script α → σ → Prop
  | .done a, s => post a s
  | .ask r next, s => ∀ s', rely s s' → ∀ reply t, may s' r reply t →
      step s' ⟨r, reply⟩ t ∧ Ensures may rely step post (next reply) t

variable {may : Possible σ} {rely : σ → σ → Prop} {step : σ → Exchange → σ → Prop}
  {post : α → σ → Prop} {s t u : σ}

/-! ## Taking a script apart -/

theorem ensures_done {a : α} (h : post a s) :
    Ensures may rely step post (.done a) s :=
  h

theorem ensures_request {r : Request} {post : r.Reply → σ → Prop}
    (h : ∀ s', rely s s' → ∀ reply t, may s' r reply t → step s' ⟨r,
      reply⟩ t ∧ post reply t) :
    Ensures may rely step post (request r) s :=
  h

theorem Ensures.bind {script : Script α} {f : α → Script β} {post : β → σ → Prop}
    (h : Ensures may rely step (fun a t =>
      Ensures may rely step post (f a) t) script s) :
    Ensures may rely step post (script.bind f) s := by
  induction script generalizing s with
  | done a => exact h
  | ask r next ih =>
      intro s' hrely reply t hmay
      obtain ⟨hstep, hnext⟩ := h s' hrely reply t hmay
      exact ⟨hstep, ih reply hnext⟩

theorem Ensures.mono {step' : σ → Exchange → σ → Prop} {post' : α → σ → Prop}
    {script : Script α} (h : Ensures may rely step post script s)
    (hstep : ∀ s x t, step s x t → step' s x t)
    (hpost : ∀ a t, post a t → post' a t) :
    Ensures may rely step' post' script s := by
  induction script generalizing s with
  | done a => exact hpost a s h
  | ask r next ih =>
      intro s' hrely reply t hmay
      obtain ⟨hnow, hnext⟩ := h s' hrely reply t hmay
      exact ⟨hstep _ _ _ hnow, ih reply hnext⟩

theorem Ensures.imp {post' : α → σ → Prop} {script : Script α}
    (h : Ensures may rely step post script s) (hpost : ∀ a t, post a t → post' a t) :
    Ensures may rely step post' script s :=
  h.mono (fun _ _ _ hstep => hstep) hpost

theorem Ensures.andThen {mid : α → σ → Prop} {script : Script α} {f : α → Script β}
    {post : β → σ → Prop} (h : Ensures may rely step mid script s)
    (hf : ∀ a t, mid a t → Ensures may rely step post (f a) t) :
    Ensures may rely step post (script.bind f) s :=
  Ensures.bind (h.imp hf)

/-- A script that may fail: the rest is only carried out after a success. -/
theorem Ensures.andThenTry {mid : Except ε α → σ → Prop} {x : ExceptT ε Script α}
    {f : α → ExceptT ε Script β} {post : Except ε β → σ → Prop}
    (h : Ensures may rely step mid x.run s)
    (hok : ∀ a t, mid (.ok a) t → Ensures may rely step post (f a).run t)
    (herror : ∀ e t, mid (.error e) t → post (.error e) t) :
    Ensures may rely step post (x >>= f).run s := by
  rw [run_tryBind]
  refine h.andThen fun r t hr => ?_
  cases r with
  | ok a => exact hok a t hr
  | error e => exact herror e t hr

theorem Ensures.andThenOk {value : σ → α} {mid : σ → Prop} {x : ExceptT ε Script α}
    {f : α → ExceptT ε Script β} {post : Except ε β → σ → Prop}
    (h : Ensures may rely step (fun r t => r = .ok (value t) ∧ mid t) x.run s)
    (hok : ∀ t, mid t → Ensures may rely step post (f (value t)).run t) :
    Ensures may rely step post (x >>= f).run s := by
  refine h.andThenTry ?_ ?_
  · rintro a t ⟨heq, hmid⟩
    obtain rfl := Except.ok.inj heq
    exact hok t hmid
  · rintro e t ⟨heq, -⟩
    exact absurd heq (by simp)

theorem Ensures.lift {x : Script α} {post : Except ε α → σ → Prop}
    (h : Ensures may rely step (fun a t => post (.ok a) t) x s) :
    Ensures may rely step post (liftM x : ExceptT ε Script α).run s := by
  rw [run_lift]
  exact h.andThen fun r t hr => ensures_done hr

/-- A script whose failures are given another form, and then the rest. -/
theorem Ensures.adaptThen {mid : Except ε α → σ → Prop} {x : ExceptT ε Script α}
    {f : ε → ε'} {g : α → ExceptT ε' Script β} {post : Except ε' β → σ → Prop}
    (h : Ensures may rely step mid x.run s)
    (hok : ∀ a t, mid (.ok a) t → Ensures may rely step post (g a).run t)
    (herror : ∀ e t, mid (.error e) t → post (.error (f e)) t) :
    Ensures may rely step post (x.adapt f >>= g).run s := by
  rw [run_tryBind, run_adapt, bind_assoc]
  refine h.andThen fun r t hr => ?_
  cases r with
  | ok a => exact hok a t hr
  | error e => exact herror e t hr

theorem Ensures.adaptThenOk {value : σ → α} {mid : σ → Prop}
    {x : ExceptT ε Script α} {f : ε → ε'} {g : α → ExceptT ε' Script β}
    {post : Except ε' β → σ → Prop}
    (h : Ensures may rely step (fun r t => r = .ok (value t) ∧ mid t) x.run s)
    (hok : ∀ t, mid t → Ensures may rely step post (g (value t)).run t) :
    Ensures may rely step post (x.adapt f >>= g).run s := by
  refine h.adaptThen ?_ ?_
  · rintro a t ⟨heq, hmid⟩
    obtain rfl := Except.ok.inj heq
    exact hok t hmid
  · rintro e t ⟨heq, -⟩
    exact absurd heq (by simp)

theorem Ensures.liftThen {mid : α → σ → Prop} {x : Script α}
    {f : α → ExceptT ε Script β} {post : Except ε β → σ → Prop}
    (h : Ensures may rely step mid x s)
    (hf : ∀ a t, mid a t → Ensures may rely step post (f a).run t) :
    Ensures may rely step post ((liftM x : ExceptT ε Script α) >>= f).run s := by
  rw [run_tryBind, run_lift, bind_assoc]
  exact h.andThen fun a t ha => hf a t ha

theorem Ensures.locked {key : ServiceKey} {body : Script α}
    (h : Ensures may rely step (fun _ t => Ensures may rely step (fun a u =>
      Ensures may rely step (fun _ v => post a v) (request (.unlock key)) u) body t)
        (request (.lock key)) s) :
    Ensures may rely step post (Script.locked key body) s := by
  refine Ensures.bind (h.imp fun _ t hbody => ?_)
  refine Ensures.bind (hbody.imp fun a u hunlock => ?_)
  exact Ensures.bind (hunlock.imp fun _ v hpost => ensures_done hpost)

/-! ## Scripts that only ask for some things -/

theorem Asks.tryBind {Q : Request → Prop} {x : ExceptT ε Script α}
    {f : α → ExceptT ε Script β} (hx : Asks Q x.run)
    (hf : ∀ a, Asks Q (f a).run) : Asks Q (x >>= f).run := by
  rw [run_tryBind]
  refine hx.bind fun r => ?_
  cases r with
  | ok a => exact hf a
  | error e => exact trivial

theorem Asks.adapt {Q : Request → Prop} {x : ExceptT ε Script α} {f : ε → ε'}
    (hx : Asks Q x.run) : Asks Q (x.adapt f).run := by
  rw [run_adapt]
  exact hx.bind fun _ => trivial

theorem Asks.lift {Q : Request → Prop} {x : Script α} (hx : Asks Q x) :
    Asks Q (liftM x : ExceptT ε Script α).run := by
  rw [run_lift]
  exact hx.bind fun _ => trivial

theorem Asks.locked {Q : Request → Prop} {key : ServiceKey} {body : Script α}
    (hlock : Q (.lock key)) (hunlock : Q (.unlock key)) (hbody : Asks Q body) :
    Asks Q (Script.locked key body) :=
  (asks_request hlock).bind fun _ => hbody.bind fun _ =>
    (asks_request hunlock).bind fun _ => trivial

/-- A script whose steps all keep what `P` says of the state keeps it to the end. -/
theorem Asks.ensures {Q : Request → Prop} {P : σ → Prop} {script : Script α}
    (hasks : Asks Q script) (hrely : ∀ {s s'}, P s → rely s s' → P s')
    (hstep : ∀ {s r reply t}, Q r → P s → may s r reply t → step s ⟨r, reply⟩ t ∧ P t)
    (hs : P s) : Ensures may rely step (fun _ t => P t) script s := by
  induction script generalizing s with
  | done a => exact hs
  | ask r next ih =>
      intro s' hs' reply t hmay
      obtain ⟨hdone, ht⟩ := hstep hasks.1 (hrely hs hs') hmay
      exact ⟨hdone, ih reply (hasks.2 reply) ht⟩

/-! ## Runs -/

theorem Leads.of_ensures {script : Script α} {a : α} (h : Leads may script s a t)
    (hensures : Ensures may Eq step post script s) : post a t := by
  induction h with
  | done a s => exact hensures
  | ask now later ih => exact ih (hensures _ rfl _ _ now).2

/-- The script, from one state to another, with its exchanges and the state
after each. It may have been stopped after any of them; only a script that was
not has a result. -/
inductive Course (may : Possible σ) :
    Script α → σ → List (Exchange × σ) → Option α → σ → Prop
  | stop (script : Script α) (s : σ) : Course may script s [] none s
  | done (a : α) (s : σ) : Course may (.done a) s [] (some a) s
  | ask {r : Request} {next : r.Reply → Script α} {reply : r.Reply} {s t u : σ}
      {rest : List (Exchange × σ)} {result : Option α} (now : may s r reply t)
      (later : Course may (next reply) t rest result u) :
      Course may (.ask r next) s ((⟨r, reply⟩, t) :: rest) result u

/-- The exchanges of a script with surroundings that always answer alike, and the
state after each. -/
def trace (answer : Surroundings σ) : Script α → σ → List (Exchange × σ)
  | .done _, _ => []
  | .ask r next, s =>
    (⟨r, (answer r s).1⟩, (answer r s).2) :: trace answer (next (answer r s).1)
    (answer r s).2

theorem course_trace {answer : Surroundings σ}
    (hmay : ∀ r s, may s r (answer r s).1 (answer r s).2) (script : Script α)
    (s : σ) :
    Course may script s (trace answer script s) (some (run answer script s).1)
      (run answer script s).2 := by
  induction script generalizing s with
  | done a => exact .done a s
  | ask r next ih => exact .ask (hmay r s) (ih _ _)

theorem leads_run {answer : Surroundings σ}
    (hmay : ∀ r s, may s r (answer r s).1 (answer r s).2) (script : Script α)
    (s : σ) :
    Leads may script s (run answer script s).1 (run answer script s).2 := by
  induction script generalizing s with
  | done a => exact .done a s
  | ask r next ih => exact .ask (hmay r s) (ih _ _)

theorem Course.last_mem {script : Script α} {steps : List (Exchange × σ)}
    {result : Option α} (h : Course may script s steps result u) :
    u ∈ s :: steps.map Prod.snd := by
  induction h with
  | stop script s => exact List.mem_cons_self
  | done a s => exact List.mem_cons_self
  | ask now later ih => exact List.mem_cons_of_mem _ ih

/-- Each exchange is as `P` says of the states before and after it. -/
def Along (P : σ → Exchange → σ → Prop) : σ → List (Exchange × σ) → Prop
  | _, [] => True
  | s, (x, t) :: rest => P s x t ∧ Along P t rest

theorem Along.imp {P Q : σ → Exchange → σ → Prop} {steps : List (Exchange × σ)}
    (h : Along P s steps) (himp : ∀ s x t, P s x t → Q s x t) : Along Q s steps := by
  induction steps generalizing s with
  | nil => exact trivial
  | cons step steps ih => exact ⟨himp _ _ _ h.1, ih h.2⟩

theorem Course.of_ensures {script : Script α} {steps : List (Exchange × σ)}
    {result : Option α} (h : Course may script s steps result u)
    (hensures : Ensures may Eq step post script s) :
    Along step s steps ∧ ∀ a ∈ result, post a u := by
  induction h with
  | stop script s => exact ⟨trivial, fun a ha => absurd ha (by simp)⟩
  | done a s =>
      refine ⟨trivial, fun b hb => ?_⟩
      obtain rfl : a = b := by simpa using hb
      exact hensures
  | ask now later ih =>
      obtain ⟨hstep, hrest⟩ := hensures _ rfl _ _ now
      obtain ⟨halong, hend⟩ := ih hrest
      exact ⟨⟨hstep, halong⟩, hend⟩

end PortForwarding.Script
