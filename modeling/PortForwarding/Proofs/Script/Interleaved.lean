import PortForwarding.Proofs.Script.Ensures

/-!
# Two scripts side by side

Two passes may be under way at one time. `Interleaved` are their runs together
over one state: each step is a step of one of them, in any order. What each
ensures while it is let alone as far as it relies on, it ensures beside the other,
if the steps of either are such as the other relies on (`Interleaved.of_ensures`).

`weave` carries two scripts out by a timetable, which makes a run together of it.
-/

namespace PortForwarding.Script

variable {α β σ : Type}

/-- The two scripts lead, side by side, from one state to their results and
another state. -/
inductive Interleaved (may may' : Possible σ) :
    Script α → Script β → σ → α → β → σ → Prop where
  | done (a : α) (b : β) (s : σ) : Interleaved may may' (.done a) (.done b) s a b s
  | left {r : Request} {next : r.Reply → Script α} {y : Script β} {reply : r.Reply}
      {s t u : σ} {a : α} {b : β} (now : may s r reply t)
      (later : Interleaved may may' (next reply) y t a b u) :
      Interleaved may may' (.ask r next) y s a b u
  | right {r : Request} {x : Script α} {next : r.Reply → Script β} {reply : r.Reply}
      {s t u : σ} {a : α} {b : β} (now : may' s r reply t)
      (later : Interleaved may may' x (next reply) t a b u) :
      Interleaved may may' x (.ask r next) s a b u

variable {may may' : Possible σ} {rely rely' : σ → σ → Prop}
  {step step' : σ → Exchange → σ → Prop} {post : α → σ → Prop} {post' : β → σ → Prop}
  {s t u : σ}

/-- What is ensured from a state on is ensured after others have acted, if what it
ends in bears that. -/
theorem Ensures.afterOthers {script : Script α}
    (h : Ensures may rely step post script s)
    (htrans : ∀ {s t u}, rely s t → rely t u → rely s u)
    (hstable : ∀ {a s t}, post a s → rely s t → post a t) (hs : rely s t) :
    Ensures may rely step post script t := by
  cases script with
  | done a => exact hstable h hs
  | ask r next => exact fun s' hs' reply u hmay => h s' (htrans hs hs') reply u hmay

/-- **Side by side each script ensures what it ensures alone**, if the other does
nothing but what it relies on. -/
theorem Interleaved.of_ensures {x : Script α} {y : Script β} {a : α} {b : β}
    (h : Interleaved may may' x y s a b u) (hx : Ensures may rely step post x s)
    (hy : Ensures may' rely' step' post' y s) (hrefl : ∀ s, rely s s)
    (hrefl' : ∀ s, rely' s s) (htrans : ∀ {s t u}, rely s t → rely t u → rely s u)
    (htrans' : ∀ {s t u}, rely' s t → rely' t u → rely' s u)
    (hstable : ∀ {a s t}, post a s → rely s t → post a t)
    (hstable' : ∀ {b s t}, post' b s → rely' s t → post' b t)
    (hstep : ∀ {s x t}, step s x t → rely' s t)
    (hstep' : ∀ {s x t}, step' s x t → rely s t) : post a u ∧ post' b u := by
  -- over the run: the step of one is an act of others to what is left of the
  -- other
  induction h with
  | done a b s => exact ⟨hx, hy⟩
  | left now later ih =>
      obtain ⟨hdone, hnext⟩ := hx _ (hrefl _) _ _ now
      exact ih hnext (hy.afterOthers htrans' hstable' (hstep hdone))
  | right now later ih =>
      obtain ⟨hdone, hnext⟩ := hy _ (hrefl' _) _ _ now
      exact ih (hx.afterOthers htrans hstable (hstep' hdone)) hnext

/-! ## By a timetable -/

abbrev Attending (σ : Type) := (r : Request) → σ → Option (r.Reply × σ)

/-- The timetable says whose turn it is, `true` for the first script; a script
that has come to its end lets its turns go by. -/
def weave (answer answer' : Attending σ) :
    List Bool → Script α → Script β → σ → Option (α × β × σ)
  | [], .done a, .done b, s => some (a, b, s)
  | [], _, _, _ => none
  | true :: turns, .done a, y, s => weave answer answer' turns (.done a) y s
  | true :: turns, .ask r next, y, s =>
    (answer r s).bind fun reply => weave answer answer' turns (next reply.1) y reply.2
  | false :: turns, x, .done b, s => weave answer answer' turns x (.done b) s
  | false :: turns, x, .ask r next, s =>
    (answer' r s).bind fun reply => weave answer answer' turns x (next reply.1) reply.2

theorem interleaved_weave {answer answer' : Attending σ}
    (hmay : ∀ {r s reply t}, answer r s = some (reply, t) → may s r reply t)
    (hmay' : ∀ {r s reply t}, answer' r s = some (reply, t) → may' s r reply t)
    {turns : List Bool} {x : Script α} {y : Script β} {a : α} {b : β}
    (h : weave answer answer' turns x y s = some (a, b, t)) :
    Interleaved may may' x y s a b t := by
  induction turns generalizing x y s with
  | nil =>
      cases x with
      | ask r next => exact absurd h (by simp [weave])
      | done a' =>
          cases y with
          | ask r next => exact absurd h (by simp [weave])
          | done b' =>
              obtain ⟨rfl, rfl, rfl⟩ : a' = a ∧ b' = b ∧ s = t := by simpa [weave] using h
              exact .done a' b' s
  | cons turn turns ih =>
      cases turn with
      | true =>
          cases x with
          | done a' => exact ih (by simpa [weave] using h)
          | ask r next =>
              obtain ⟨⟨reply, u⟩, hreply, hrest⟩ := Option.bind_eq_some_iff.mp h
              exact .left (hmay hreply) (ih hrest)
      | false =>
          cases y with
          | done b' => exact ih (by simpa [weave] using h)
          | ask r next =>
              rw [weave] at h
              obtain ⟨⟨reply, u⟩, hreply, hrest⟩ := Option.bind_eq_some_iff.mp h
              exact .right (hmay' hreply) (ih hrest)

end PortForwarding.Script
