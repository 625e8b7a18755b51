import PortForwarding.Proofs.Plan.Progress
import PortForwarding.Proofs.Plan.Settlement

/-!
# A plan is carried out to its end or undone

A run goes forwards along the plan (`executeAfter_leads`), and after a failure
back along the operations that were carried out (`undoAll_leads`). It ends with
the first so many operations of the plan standing and all others undone or never
begun (`execute_all_or_prefix`).

Going back relies on the router telling the truth about what it does not know. If
it denies a rule that is there, the rule stays, and nobody is told
(`execute_trusts_denial`).
-/

namespace PortForwarding

open Listing Script Operation

namespace Plan

section

variable {start : List RouterRule} {done : List Completed} {todo : List Operation}
  {c : Completed} {op : Operation} {s t : Site} {id : String}
  {needed : List UInt16} {first : Reservations}

/-! ## Back -/

/-- **What is left after operations were undone**, the latest first, as far as
possible: the operations before them, as if the others had never been. -/
def Undone (needed : List UInt16) (start : List RouterRule) (first : Reservations)
    (done : List Completed) (undone : List Operation) (failed : Bool) (t : Site) :
    Prop :=
  ∃ back rest, done = back ++ rest ∧ undone = back.map Completed.operation ∧
    (failed = false → rest = []) ∧ Placed start rest [] t ∧
    Ledger needed first rest t.memory.reservations

theorem undoAll_leads {listing : Option (List RouterRule)}
    {undone : List Operation} {failure : Option (Operation × RouterError)}
    (hplaced : Placed start done [] s)
    (hledger : Ledger needed first done s.memory.reservations)
    (hshown : ∀ r ∈ held done [], Completed.ShownBy listing r)
    (hstopped : s.stopped = true)
    (h :
      Leads (Site.May False) (Completed.undoAll listing done) s (undone, failure) t) :
    Undone needed start first done undone failure.isSome t := by
  -- over what was done, the latest first: a compensation takes one operation off
  -- both invariants
  induction done generalizing s undone failure with
  | nil =>
      obtain ⟨heq, rfl⟩ := leads_done.mp h
      obtain ⟨rfl, rfl⟩ := Prod.mk.inj heq
      exact ⟨[], [], rfl, rfl, fun _ => rfl, hplaced, hledger⟩
  | cons c done ih =>
      have hleft : ∀ x, c.left? = some x → x ∈ s.rules ∧ Completed.ShownBy listing x := by
        intro x hx
        have hmem : x ∈ held (c :: done) [] := by
          rw [held_cons_done, hx]
          exact List.mem_append_left _ (List.mem_singleton.mpr rfl)
        exact ⟨hplaced.present x hmem, hshown x hmem⟩
      obtain ⟨r, s₁, hcompensation, hrest⟩ := leads_bind.mp h
      rcases Completed.compensation_leads (hplaced.faithful c List.mem_cons_self)
        hleft hstopped hcompensation with ⟨rfl, id, happlies⟩ | ⟨err, rfl, rfl⟩
      · obtain ⟨u, s₂, hreclaim, hrest⟩ := leads_bind.mp hrest
        obtain ⟨⟨later, failed⟩, s₃, hlater, hdone⟩ := leads_bind.mp hrest
        obtain ⟨heq, rfl⟩ := leads_done.mp hdone
        obtain ⟨rfl, rfl⟩ := Prod.mk.inj heq
        rw [← happlies.memory] at hledger
        obtain ⟨hledger, hrules, hissued, hstill⟩ := reclaim_leads hledger hreclaim
        obtain ⟨back, rest, rfl, rfl, hall, hplaced, hledger⟩ :=
          ih ((hplaced.backward happlies).congr hrules hissued) hledger
            (fun r hr =>
              hshown r (by rw [held_cons_done]; exact List.mem_append_right _ hr))
            (by rw [hstill, happlies.stopped, hstopped]) hlater
        exact ⟨c :: back, rest, rfl, rfl, hall, hplaced, hledger⟩
      -- the compensation has failed, and the rest stays as it is
      · obtain ⟨heq, rfl⟩ := leads_done.mp hrest
        obtain ⟨rfl, rfl⟩ := Prod.mk.inj heq
        exact ⟨[], c :: done, rfl, rfl, fun hf => absurd hf (by simp),
          hplaced.congr rfl rfl, hledger⟩

/-- A stopped plan tells what it had done, and is undone as far as possible. -/
theorem halt_leads {cause : HaltCause} {skipped : Nat} {halt : Halt}
    (hplaced : Placed start done todo s)
    (hledger : Ledger needed first done s.memory.reservations)
    (hstopped : s.stopped = true)
    (h : Leads (Site.May False) (Completed.halt done cause skipped) s halt t) :
    halt.completed = done.reverse.map Completed.operation ∧
      Undone needed start first done halt.rolledBack halt.rollbackFailure.isSome
        t := by
  obtain ⟨⟨undone, failure⟩, s₁, hrollback, hdone⟩ := leads_bind.mp h
  obtain ⟨rfl, rfl⟩ := leads_done.mp hdone
  refine ⟨rfl, ?_⟩
  have hnone := hplaced.stop
  unfold Completed.rollback at hrollback
  cases done with
  | nil =>
      obtain ⟨heq, rfl⟩ := leads_done.mp hrollback
      obtain ⟨rfl, rfl⟩ := Prod.mk.inj heq
      exact ⟨[], [], rfl, rfl, fun _ => rfl, hnone, hledger⟩
  | cons c done =>
      obtain ⟨reply, s₂, hlist, hundo⟩ := leads_bind.mp hrollback
      obtain ⟨rfl, hreply⟩ := Site.may_list (leads_listRules.mp hlist)
      refine undoAll_leads hnone hledger ?_ hstopped hundo
      intro r hr rules hrules
      rcases hreply with rfl | ⟨err, rfl⟩
      · obtain rfl := Option.some.inj hrules
        exact mem_ids_of_mem (hnone.present r hr)
      · exact absurd hrules (by simp [Except.toOption])

/-! ## Forwards -/

/-- The three ways on from an operation: the signal to stop is seen, the operation
fails, or it is carried out and the next one is up. -/
theorem executeAfter_cons {σ : Type} {may : Possible σ} {s t : σ}
    {result : Except Halt Unit}
    (h : Leads may (executeAfter needed done (op :: todo)).run s result t) :
    (∃ s₁ halt, may s .cancelled true s₁ ∧
      Leads may (Completed.halt done .cancelled (todo.length + 1)) s₁ halt t ∧
      result = .error halt) ∨
    (∃ s₁ err s₂ halt, may s .cancelled false s₁ ∧
      Leads may (attempt op).run s₁ (.error err) s₂ ∧
      Leads may (Completed.halt done (.failed op err) todo.length) s₂ halt t ∧
      result = .error halt) ∨
    (∃ s₁ applied s₂ released s₃, may s .cancelled false s₁ ∧
      Leads may (attempt op).run s₁ (.ok applied) s₂ ∧
      Leads may (releaseUnused needed op) s₂ released s₃ ∧
      Leads may (executeAfter needed (⟨op, applied, released⟩ :: done) todo).run
        s₃ result t) := by
  obtain ⟨seen, s₁, hcancelled, hrest⟩ := leads_bind.mp h
  cases seen with
  | true =>
      obtain ⟨halt, s₂, hhalt, hdone⟩ := leads_bind.mp hrest
      obtain ⟨rfl, rfl⟩ := leads_done.mp hdone
      exact Or.inl ⟨s₁, halt, leads_isCancelled.mp hcancelled, hhalt, rfl⟩
  | false =>
      obtain ⟨r, s₂, hattempt, hrest⟩ := leads_bind.mp hrest
      cases r with
      | error err =>
          obtain ⟨halt, s₃, hhalt, hdone⟩ := leads_bind.mp hrest
          obtain ⟨rfl, rfl⟩ := leads_done.mp hdone
          exact Or.inr (Or.inl
            ⟨s₁, err, s₂, halt, leads_isCancelled.mp hcancelled, hattempt, hhalt, rfl⟩)
      | ok applied =>
          obtain ⟨released, s₃, hrelease, hlater⟩ := leads_bind.mp hrest
          exact Or.inr (Or.inr ⟨s₁, applied, s₂, released, s₃,
            leads_isCancelled.mp hcancelled, hattempt, hrelease, hlater⟩)

/-- **How an execution ends**: the plan was carried out to its end, or what was
carried out of it was undone as far as possible, unless the site denies a rule. -/
def Ended (denying : Prop) (needed : List UInt16) (start : List RouterRule)
    (first : Reservations) (plan : List Operation) (result : Except Halt Unit)
    (t : Site) : Prop :=
  match result with
  | .ok () =>
      ∃ done, done.reverse.map Completed.operation = plan ∧
        Placed start done [] t ∧ Ledger needed first done t.memory.reservations
  | .error halt => ¬denying → halt.completed <+: plan ∧
      ∃ done, halt.completed = done.reverse.map Completed.operation ∧
        Undone needed start first done halt.rolledBack halt.rollbackFailure.isSome t

theorem Ended.of_halt {denying : Prop} {cause : HaltCause} {skipped : Nat}
    {halt : Halt} (hplaced : Placed start done todo s)
    (hledger : Ledger needed first done s.memory.reservations)
    (hstopped : s.stopped = true)
    (h : Leads (Site.May denying) (Completed.halt done cause skipped) s halt t) :
    Ended denying needed start first (done.reverse.map Completed.operation ++ todo)
      (.error halt) t := by
  intro hnever
  obtain rfl := eq_false hnever
  obtain ⟨hcompleted, hundone⟩ := halt_leads hplaced hledger hstopped h
  refine ⟨?_, done, hcompleted, hundone⟩
  rw [hcompleted]
  exact List.prefix_append _ _

theorem executeAfter_leads {denying : Prop} {result : Except Halt Unit}
    (hplaced : Placed start done todo s)
    (hledger : Ledger needed first done s.memory.reservations)
    (h : Leads (Site.May denying) (executeAfter needed done todo).run s result t) :
    Ended denying needed start first (done.reverse.map Completed.operation ++
      todo) result t := by
  -- over what is left of the plan, with both invariants for what was done before
  induction todo generalizing done s with
  | nil =>
      obtain ⟨rfl, rfl⟩ := leads_done.mp h
      exact ⟨done, (List.append_nil _).symm, hplaced, hledger⟩
  | cons op todo ih =>
      rcases executeAfter_cons h with ⟨s₁, halt, hcancelled, hhalt, rfl⟩ |
        ⟨s₁, err, s₂, halt, hcancelled, hattempt, hhalt, rfl⟩ |
        ⟨s₁, applied, s₂, released, s₃, hcancelled, hattempt, hrelease, hlater⟩
      · obtain rfl : s₁ = { s with stopped := s.stopped || true } := hcancelled
        exact .of_halt (s := { s with stopped := s.stopped || true })
          (hplaced.congr rfl rfl) hledger (Bool.or_true _) hhalt
      · rw [Site.may_notCancelled hcancelled] at hattempt
        rcases attempt_leads hplaced.isGrounded hattempt with
          ⟨applied, heq, -⟩ | ⟨-, -, rfl⟩
        · exact absurd heq (by simp)
        · exact .of_halt (s := { s with stopped := true })
            (hplaced.congr rfl rfl) hledger rfl hhalt
      · rw [Site.may_notCancelled hcancelled] at hattempt
        rcases attempt_leads hplaced.isGrounded hattempt with
          ⟨applied', heq, happlies, hfaithful⟩ | ⟨err, heq, -⟩
        · obtain rfl := Except.ok.inj heq
          obtain ⟨hnote, hledger', hrules, hissued, -⟩ := releaseUnused_leads hrelease
          have hbefore : s₂.memory.reservations = s.memory.reservations := by
            rw [happlies.memory]
          rw [hbefore] at hnote hledger'
          have hplaced' := hplaced.forward (c := ⟨op, applied, released⟩) happlies
            (hfaithful released)
          have hended := ih (hplaced'.congr hrules hissued)
            (.cons hledger (by rw [hledger']; exact .refl _) hnote) hlater
          rw [List.reverse_cons, List.map_append, List.append_assoc] at hended
          exact hended
        · exact absurd heq (by simp)

/-- A successful execution has made of the reservations what the operations
give back. -/
theorem execute_ok {denying : Prop} {plan : List Operation} (hs : s.Sound)
    (hplan : Grounded s.rules plan)
    (h : Leads (Site.May denying) (execute plan).run s (.ok ()) t) :
    t.memory.reservations.Alike
      (plan.foldl (giveBack (targetedPorts plan)) s.memory.reservations) := by
  have hended : Ended denying (targetedPorts plan) s.rules s.memory.reservations plan
      (.ok ()) t :=
    executeAfter_leads (.start_of_grounded hs hplan) (.nil (.refl _)) h
  obtain ⟨done, rfl, -, hledger⟩ := hended
  exact hledger.alike

/-! ## All or a prefix -/

variable {plan : List Operation} {fresh : Nat → String}

/-- The number of operations that stand after an execution: all of them, or those
that were carried out less those that were undone. -/
def standing (plan : List Operation) : Except Halt Unit → Nat
  | .ok _ => plan.length
  | .error halt => halt.completed.length - halt.rolledBack.length

theorem Grounded.take {rules : List RouterRule} (h : Grounded rules plan) (n : Nat) :
    Grounded rules (plan.take n) :=
  ⟨fun op hop => h.each op (List.mem_of_mem_take hop),
    h.apart.sublist (((List.take_sublist n plan).filterMap _).map _)⟩

theorem Placed.specs_perm (h : Placed start done [] t) (hnd : (ids start).Nodup)
    (hplan : Grounded start (done.reverse.map Completed.operation))
    (hfresh : Fresh fresh 0 start) :
    (specs t.rules).Perm
      (specs (applyAll fresh 0 start (done.reverse.map Completed.operation))) := by
  have happlied := specs_applyAll_perm hnd hplan hfresh
  have hbalance := h.balance
  have hperm : ∀ f : Operation → List RuleSpec,
      ((done.reverse.map Completed.operation).flatMap f).Perm
        (done.flatMap fun c => f c.operation) := by
    intro f
    rw [List.flatMap_map]
    exact List.Perm.flatMap_right _ done.reverse_perm
  have htaken := hperm taken
  have hgiven := hperm given
  rw [List.perm_iff_count] at happlied hbalance htaken hgiven ⊢
  intro x
  have h₁ := happlied x
  have h₂ := hbalance x
  have h₃ := htaken x
  have h₄ := hgiven x
  simp only [List.count_append] at h₁ h₂
  omega

/-- The operations that stand are the first of the plan, and the site is as they
leave it. -/
theorem Ended.kept {result : Except Halt Unit}
    (h : Ended False needed start first plan result t) :
    ∃ done, plan.take (standing plan result) = done.reverse.map Completed.operation ∧
      Placed start done [] t ∧ Ledger needed first done t.memory.reservations ∧
      ∀ halt, result = .error halt → halt.completed <+: plan ∧
        halt.rolledBack <+: halt.completed.reverse ∧
        (halt.rollbackFailure = none → standing plan result = 0) := by
  cases result with
  | ok u =>
      obtain ⟨done, hall, hplaced, hledger⟩ := h
      refine ⟨done, ?_, hplaced, hledger, fun halt hhalt => absurd hhalt (by simp)⟩
      rw [hall]
      exact List.take_length
  | error halt =>
      obtain ⟨hfirst, done, hcompleted, back, rest, rfl, hundone, hfailure,
          hplaced, hledger⟩ :=
        h not_false
      have hcount : standing plan (.error halt) = rest.length := by
        show halt.completed.length - halt.rolledBack.length = rest.length
        rw [hcompleted, hundone]
        simp
      have hkept : rest.reverse.map Completed.operation <+: plan := by
        refine List.IsPrefix.trans ?_ hfirst
        rw [hcompleted, List.reverse_append, List.map_append]
        exact List.prefix_append _ _
      refine ⟨rest, ?_, hplaced, hledger, ?_⟩
      · rw [hcount]
        have htake := List.prefix_iff_eq_take.mp hkept
        rw [List.length_map, List.length_reverse] at htake
        exact htake.symm
      · rintro halt' hhalt
        obtain rfl := Except.error.inj hhalt
        refine ⟨hfirst, ?_, ?_⟩
        · rw [hcompleted, hundone, ← List.map_reverse, List.reverse_reverse,
            List.map_append]
          exact List.prefix_append _ _
        · intro hnone
          rw [hcount, hfailure (by rw [hnone]; rfl)]
          rfl

/-- **A plan is carried out to its end, or a first part of it stands.** Whatever
calls fail and whenever the signal to stop is seen, the configurations on the
router are those that the operations that stand leave, and the reservations are
those at the start less the ports that these operations gave back. Where nothing
failed in undoing, nothing stands. -/
theorem execute_all_or_prefix {result : Except Halt Unit} (hs : s.Sound)
    (hplan : Grounded s.rules plan) (hfresh : Fresh fresh 0 s.rules)
    (h : Leads (Site.May False) (execute plan).run s result t) :
    let kept := plan.take (standing plan result)
    (specs t.rules).Perm (specs (applyAll fresh 0 s.rules kept)) ∧
    (∀ port, t.holder? port =
      (kept.foldl (giveBack (targetedPorts plan)) s.memory.reservations).holder? port) ∧
    ∀ halt, result = .error halt → halt.completed <+: plan ∧
      halt.rolledBack <+: halt.completed.reverse ∧
      (halt.rollbackFailure = none → standing plan result = 0 ∧
        (specs t.rules).Perm (specs s.rules) ∧
            ∀ port, t.holder? port = s.holder? port) := by
  have hended : Ended False (targetedPorts plan) s.rules s.memory.reservations
      plan result t :=
    executeAfter_leads (.start_of_grounded hs hplan) (.nil (.refl _)) h
  obtain ⟨done, hkept, hplaced, hledger, herror⟩ := hended.kept
  have hgrounded := hplan.take (standing plan result)
  have hholders := hledger.alike
  intro kept
  rw [hkept] at hgrounded
  have hspecs := hplaced.specs_perm hs.ids_nodup hgrounded hfresh
  rw [← hkept] at hspecs hholders
  refine ⟨hspecs, hholders, fun halt hhalt => ?_⟩
  obtain ⟨hfirst, hundone, hnone⟩ := herror halt hhalt
  refine ⟨hfirst, hundone, fun hrollback => ?_⟩
  have hzero := hnone hrollback
  rw [hzero] at hspecs hholders
  exact ⟨hzero, hspecs, hholders⟩

end

end Plan

/-! ## A plan of which the second operation fails -/

namespace Sample

open Plan

def empty : Site := ⟨[], [], .empty, false⟩

def http : RouterRule := ⟨"r1", (wish "http" 80 8080).spec⟩

def withHttp (stopped : Bool) : Site := ⟨[http], ["r1"], .empty, stopped⟩

def createHttp : Operation := .create (wish "http" 80 8080) .portNotYetExists

def createHttps : Operation := .create (wish "https" 443 8443) .portNotYetExists

def halted (failure : Option RouterError) : Halt :=
  { cause := .failed createHttps (.api 500 "down")
    completed := [createHttp]
    skipped := 0
    rolledBack := if failure = none then [createHttp] else []
    rollbackFailure := failure.map fun err => (createHttp, err) }

theorem grounded_creations : Grounded empty.rules [createHttp, createHttps] := by
  refine ⟨fun op hop hk => ?_, by decide⟩
  simp only [List.mem_cons, List.not_mem_nil, or_false] at hop
  rcases hop with rfl | rfl <;> exact absurd rfl hk

theorem fresh_empty : Fresh Sample.fresh 0 empty.rules :=
  ⟨fresh_injective, fun _ _ => List.not_mem_nil⟩

theorem empty_sound : empty.Sound :=
  ⟨List.nodup_nil, fun _ h => absurd h List.not_mem_nil⟩

theorem leads_to_rollback {denying : Prop} {halt : Halt} {t : Site}
    (h : Leads (Site.May denying) (Completed.halt [⟨createHttp, http, none⟩]
      (.failed createHttps (.api 500 "down")) 0) (withHttp true) halt t) :
    Leads (Site.May denying) (execute [createHttp, createHttps]).run empty
      (.error halt) t := by
  refine leads_ask.mpr ⟨false, empty, rfl, ?_⟩
  refine leads_ask.mpr ⟨.ok http, withHttp false, ⟨rfl, by decide, rfl⟩, ?_⟩
  refine leads_ask.mpr ⟨false, withHttp false, rfl, ?_⟩
  refine leads_ask.mpr ⟨.error (.api 500 "down"), withHttp true, rfl, ?_⟩
  exact leads_bind.mpr ⟨_, _, .done _ _, leads_bind.mpr ⟨halt, t, h, .done _ _⟩⟩

end Sample

open Sample in
theorem Plan.execute_all_or_prefix_sample :
    let plan := [createHttp, createHttps]
    let result : Except Halt Unit := .error (halted (some (.api 503 "")))
    let kept := plan.take (standing plan result)
    (specs (withHttp true).rules).Perm
    (specs (applyAll Sample.fresh 0 empty.rules kept)) ∧
    (∀ port, (withHttp true).holder? port =
      (kept.foldl (giveBack (targetedPorts plan))
      empty.memory.reservations).holder? port) ∧
    ∀ halt, result = .error halt → halt.completed <+: plan ∧
      halt.rolledBack <+: halt.completed.reverse ∧
      (halt.rollbackFailure = none → standing plan result = 0 ∧
        (specs (withHttp true).rules).Perm (specs empty.rules) ∧
        ∀ port, (withHttp true).holder? port = empty.holder? port) := by
  refine execute_all_or_prefix empty_sound grounded_creations fresh_empty
    (leads_to_rollback ?_)
  refine leads_ask.mpr ⟨.ok [http], withHttp true, ⟨rfl, rfl⟩, ?_⟩
  refine leads_ask.mpr ⟨.error (.api 503 ""), withHttp true, ⟨fun h => h, rfl⟩, ?_⟩
  exact .done _ _

open Sample in
/-- **A denial is taken for the truth.** If the router denies the rule that is to
be removed, the rule stays and nothing is told of it. -/
theorem Plan.execute_trusts_denial :
    ∃ (s t : Site) (plan : List Operation) (halt : Halt) (fresh : Nat → String),
      s.Sound ∧ Grounded s.rules plan ∧ Fresh fresh 0 s.rules ∧
      Leads (Site.May True) (execute plan).run s (.error halt) t ∧
      halt.rollbackFailure = none ∧
      ¬(specs t.rules).Perm
        (specs (applyAll fresh 0 s.rules
          (plan.take (standing plan (.error halt))))) := by
  refine ⟨empty, withHttp true, [createHttp, createHttps], halted none,
    Sample.fresh, empty_sound, grounded_creations, fresh_empty,
    leads_to_rollback ?_, rfl, by decide⟩
  refine leads_ask.mpr ⟨.ok [http], withHttp true, ⟨rfl, rfl⟩, ?_⟩
  refine leads_ask.mpr ⟨.error (.notFound "r1"), withHttp true,
    ⟨fun _ => trivial, rfl⟩, ?_⟩
  exact .done _ _

end PortForwarding
