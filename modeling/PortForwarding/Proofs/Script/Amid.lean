import PortForwarding.Proofs.Script.Leads

/-!
# A script among others

Where others use the surroundings too, they may act before any request is
answered: `Amid` puts what they may do in front of every answer. A script that
asks for one thing at most gives them one chance to act, and is then alone
(`leads_of_amid`).

A run over a state with notes in it, which no answer depends on, is a run over the
state without them (`Leads.project`).
-/

namespace PortForwarding.Script

variable {α σ τ ε : Type}

def Amid (others : σ → σ → Prop) (may : Possible σ) : Possible σ :=
  fun s r reply t => ∃ u, others s u ∧ may u r reply t

def AsksOnce : Script α → Prop
  | .done _ => True
  | .ask _ next => ∀ reply, ∃ a, next reply = .done a

variable {others : σ → σ → Prop} {may : Possible σ} {s t : σ} {a : α}

theorem asksOnce_request (r : Request) : AsksOnce (request r) :=
  fun reply => ⟨reply, rfl⟩

/-- A script that asks for one thing at most has others before it and not
within it. -/
theorem leads_of_amid {script : Script α} (honce : AsksOnce script)
    (hrefl : ∀ s, others s s) (h : Leads (Amid others may) script s a t) :
    ∃ u, others s u ∧ Leads may script u a t := by
  cases h with
  | done a s => exact ⟨s, hrefl s, .done a s⟩
  | ask now later =>
      obtain ⟨u, hothers, hmay⟩ := now
      obtain ⟨b, hnext⟩ := honce _
      rw [hnext] at later
      obtain ⟨rfl, rfl⟩ := leads_done.mp later
      refine ⟨u, hothers, .ask hmay ?_⟩
      rw [hnext]
      exact .done a t

/-- What a run does to the state it does to the part of the state that decides
its answers. -/
theorem Leads.project {may' : Possible τ} {script : Script α} (part : σ → τ)
    (hmay : ∀ {s r reply t}, may s r reply t → may' (part s) r reply (part t))
    (h : Leads may script s a t) : Leads may' script (part s) a (part t) := by
  induction h with
  | done a s => exact .done a _
  | ask now later ih => exact .ask (hmay now) ih

end PortForwarding.Script
