import Mathlib.Logic.Relation
import PortForwarding.Proofs.Script.Leads

/-!
# What is asked on the way

Of a stage of a pass it is often enough to know which requests it can make at all:
`Way` is a way through the states by requests of a class, whatever the script that
makes them.

What is seen of a pass from outside is what it asks for: `Recorded` surroundings
write down every exchange, in order. What of it is of interest is picked out of
the record, and a stage that asks for nothing of the kind leaves it as it is
(`Way.unseen`).
-/

namespace PortForwarding.Script

variable {α β σ : Type} {may : Possible σ} {Q Q' : Request → Prop} {s t : σ}

/-! ## Ways -/

/-- Requests of a class lead from one state to another. -/
def Way (may : Possible σ) (Q : Request → Prop) : σ → σ → Prop :=
  Relation.ReflTransGen fun s t => ∃ r reply, Q r ∧ may s r reply t

theorem Way.trans {u : σ} (h : Way may Q s t) (h' : Way may Q t u) :
    Way may Q s u :=
  Relation.ReflTransGen.trans h h'

theorem Way.of_may {r : Request} {reply : r.Reply} (hr : Q r) (h : may s r reply t) :
    Way may Q s t :=
  .single ⟨r, reply, hr, h⟩

theorem Leads.way {script : Script α} {a : α} (h : Leads may script s a t)
    (asks : Asks Q script) : Way may Q s t := by
  induction h with
  | done a s => exact .refl
  | ask now later ih => exact (Way.of_may asks.1 now).trans (ih (asks.2 _))

theorem Way.mono (h : Way may Q s t) (himp : ∀ r, Q r → Q' r) : Way may Q' s t :=
  Relation.ReflTransGen.mono
    (fun _ _ ⟨r, reply, hr, hmay⟩ => ⟨r, reply, himp r hr, hmay⟩) _ _ h

theorem Way.preserves {P : σ → Prop} (h : Way may Q s t)
    (step : ∀ {s r reply t}, Q r → P s → may s r reply t → P t) (hs : P s) : P t := by
  induction h with
  | refl => exact hs
  | tail _ last ih =>
      obtain ⟨r, reply, hr, hmay⟩ := last
      exact step hr ih hmay

/-- A script under the lock of a Service, with the state in which it gets the lock
and the one in which it gives it back. -/
theorem leads_lockedTry {ε : Type} {key : ServiceKey} {body : ExceptT ε Script α}
    {result : Except ε α} (h : Leads may (lockedTry key body).run s result t) :
    ∃ s₁ s₂, may s (.lock key) () s₁ ∧ Leads may body.run s₁ result s₂ ∧
      may s₂ (.unlock key) () t := by
  obtain ⟨u, s₁, hlock, hrest⟩ := leads_bind.mp h
  obtain ⟨a, s₂, hbody, hrest⟩ := leads_bind.mp hrest
  obtain ⟨v, s₃, hunlock, hdone⟩ := leads_bind.mp hrest
  obtain ⟨rfl, rfl⟩ := leads_done.mp hdone
  exact ⟨s₁, s₂, leads_request.mp hlock, hbody, leads_request.mp hunlock⟩

/-! ## Records -/

/-- Surroundings that write down what they are asked and what they answer. -/
def Recorded (may : Possible σ) : Possible (σ × List Exchange) := fun s r reply t =>
  may s.1 r reply t.1 ∧ t.2 = s.2 ++ [⟨r, reply⟩]

def Misses (pick : Exchange → Option β) (Q : Request → Prop) : Prop :=
  ∀ r reply, Q r → pick ⟨r, reply⟩ = none

variable {pick : Exchange → Option β} {x y : σ × List Exchange}

theorem picked_of_may {r : Request} {reply : r.Reply} (h : Recorded may x r reply y) :
    y.2.filterMap pick = x.2.filterMap pick ++ (pick ⟨r, reply⟩).toList := by
  rw [h.2, List.filterMap_append]
  cases hpick : pick ⟨r, reply⟩ <;> simp [hpick]

theorem Recorded.subset {r : Request} {reply : r.Reply}
    (h : Recorded may x r reply y) : x.2 ⊆ y.2 := by
  rw [h.2]
  exact List.subset_append_left _ _

theorem Recorded.mem {r : Request} {reply : r.Reply} (h : Recorded may x r reply y) :
    ⟨r, reply⟩ ∈ y.2 := by
  rw [h.2]
  exact List.mem_append_right _ (List.mem_singleton.mpr rfl)

theorem Way.asked (h : Way (Recorded may) Q x y) (hx : ∀ e ∈ x.2, Q e.1) :
    ∀ e ∈ y.2, Q e.1 := by
  refine h.preserves (P := fun z => ∀ e ∈ z.2, Q e.1) ?_ hx
  intro u r reply v hr hu hmay e he
  rw [hmay.2] at he
  rcases List.mem_append.mp he with hearlier | hlast
  · exact hu e hearlier
  · obtain rfl := List.mem_singleton.mp hlast
    exact hr

/-- **What is not asked for is not seen.** -/
theorem Way.unseen (h : Way (Recorded may) Q x y) (hmisses : Misses pick Q) :
    y.2.filterMap pick = x.2.filterMap pick := by
  refine h.preserves (P := fun z => z.2.filterMap pick = x.2.filterMap pick) ?_ rfl
  intro u r reply v hr hu hmay
  rw [picked_of_may hmay, hmisses r reply hr, hu]
  exact List.append_nil _

/-- Surroundings that always answer alike, with what they write down. -/
def recording (answer : Surroundings σ) :
    Surroundings (σ × List Exchange) := fun r x =>
  ((answer r x.1).1, (answer r x.1).2, x.2 ++ [⟨r, (answer r x.1).1⟩])

theorem recording_may {answer : Surroundings σ}
    (hmay : ∀ r s, may s r (answer r s).1 (answer r s).2) (r : Request)
    (x : σ × List Exchange) :
    Recorded may x r (recording answer r x).1 (recording answer r x).2 :=
  ⟨hmay r x.1, rfl⟩

end PortForwarding.Script
