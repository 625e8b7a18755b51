import PortForwarding.Proofs.Pass.Cleanup
import PortForwarding.Proofs.Pass.Guard
import PortForwarding.Proofs.Router.InMemory

/-!
# A Service is let go when its rules are gone

How a cleanup pass goes is told by what it asks for (`Cleaning`): it waits, gives
up, or makes an attempt. The finalizer is only touched where the attempts are used
up, or after every owned rule that the router has listed was removed or found gone
(`Careful`), whatever is answered.

What comes of it on a router that keeps its rules in memory is said in `Tidied`.
Any call may fail there; only that a rule is not found is said of no rule that is
there.
-/

namespace PortForwarding.Removal

open Cleanup InMemory Listing Script

variable {settings : CleanupSettings} {view : ServiceView} {key : ServiceKey}
  {log : List Exchange} {rules rules' : List RouterRule}

/-! ## What is asked for -/

/-- A request by which the finalizer may come off. -/
def OnFinalizers : Request → Prop
  | .store (.get _) | .store (.patch _ (.finalizers _)) => True
  | _ => False

def write (view : ServiceView) (note : String) : Request :=
  .store (.patch view.key (.annotations [(Mark.cleanupState, some note)]))

def OffRecord : Request → Prop
  | .store (.patch _ (.annotations changes)) =>
      changes.lookup Mark.cleanupState = some none
  | _ => False

theorem not_offRecord_write (view : ServiceView) (note : String) :
    ¬OffRecord (write view note) := by
  simp [OffRecord, write]

/-- A rule that was to be removed is gone, by this answer. -/
def Gone : Except RouterError Unit → Prop
  | .ok _ | .error (.notFound _) => True
  | .error _ => False

abbrev Attempt := RouterRule × Except RouterError Unit

def removal (attempt : Attempt) : Exchange :=
  ⟨.router (.remove attempt.1.id), attempt.2⟩

def recordOf (view : ServiceView) : CleanupRecord :=
  CleanupRecord.decode (view.annotation? Mark.cleanupState)

/-! ## How a pass goes -/

/-- **The owned rules are removed**, each of them tried once. -/
inductive Removing (key : ServiceKey) : List Exchange → Except String Nat → Prop
  | unlisted (e : RouterError) (complaint : String) :
      Removing key [⟨.router .list, .error e⟩] (.error complaint)
  | cleared (rules : List RouterRule) (tries : List Attempt)
      (howned : tries.map Prod.fst = ownedRules key rules)
      (hgone : ∀ attempt ∈ tries, Gone attempt.2) :
      Removing key (⟨.router .list, .ok rules⟩ :: tries.map removal) (.ok tries.length)
  | left (rules : List RouterRule) (tries : List Attempt)
      (complaint : String) (howned : tries.map Prod.fst = ownedRules key rules)
      (hstays : ∃ attempt ∈ tries, ¬Gone attempt.2) :
      Removing key (⟨.router .list, .ok rules⟩ :: tries.map removal) (.error complaint)

structure Begins (settings : CleanupSettings) (view : ServiceView)
    (time : Timestamp) : Prop where
  due : (recordOf view).retryWait settings.retryInterval time = none
  left : ¬settings.maxRetries ≤ (recordOf view).attempts

/-- What is asked before an attempt: the time, twice, and that the start
be noted. -/
def begun (view : ServiceView) (time time' : Timestamp) (note : String) :
    List Exchange :=
  [⟨.now, time⟩, ⟨.now, time'⟩, ⟨write view note, .ok ()⟩]

/-- **How a cleanup pass goes.** -/
inductive Cleaning (settings : CleanupSettings) (view : ServiceView) :
    List Exchange → Except StoreError CleanupOutcome → Prop
  | waits (time : Timestamp) (after : Nat) (error : String)
      (hwait : (recordOf view).retryWait settings.retryInterval time = some after) :
      Cleaning settings view [⟨.now, time⟩]
        (.ok (.retry after (recordOf view).attempts error))
  | forces (time : Timestamp) (rest : List Exchange)
      (result : Except StoreError CleanupOutcome)
      (hspent : settings.maxRetries ≤ (recordOf view).attempts)
      (hrest : ∀ x ∈ rest, ¬x.1.OnRouter ∧ ¬OffRecord x.1)
      (hresult : ∀ outcome, result = .ok outcome →
        outcome = .forced (recordOf view).attempts) :
      Cleaning settings view (⟨.now, time⟩ :: rest) result
  | unstarted (time time' : Timestamp) (note : String) (e : StoreError)
      (hbegins : Begins settings view time) :
      Cleaning settings view [⟨.now, time⟩, ⟨.now, time'⟩,
        ⟨write view note, .error e⟩] (.error e)
  | fails (time time' : Timestamp) (note note' complaint : String)
      (removing : List Exchange)
      (reply : Except StoreError Unit) (result : Except StoreError CleanupOutcome)
      (hbegins : Begins settings view time)
      (hremoving : Removing view.key removing (.error complaint))
      (hresult : ∀ outcome, result = .ok outcome →
        ∃ attempts, outcome = .retry settings.retryInterval attempts complaint) :
      Cleaning settings view
        (begun view time time' note ++ (removing ++ [⟨write view note', reply⟩])) result
  | completes (time time' : Timestamp) (note : String) (n : Nat)
      (removing rest : List Exchange)
      (result : Except StoreError CleanupOutcome) (hbegins : Begins settings view time)
      (hremoving : Removing view.key removing (.ok n))
      (hrest : ∀ x ∈ rest, ¬x.1.OnRouter)
      (hresult : ∀ outcome, result = .ok outcome → outcome = .completed n) :
      Cleaning settings view (begun view time time' note ++ (removing ++ rest)) result

theorem runs_persist {record : CleanupRecord} {reply : Except StoreError Unit} :
    Runs (persist view record).run log reply ↔
      log = [⟨write view record.encode, reply⟩] :=
  runs_request (r := write view record.encode)

/-- What the answer about one rule adds to the count of all that come after it. -/
def counted (r : RouterRule) (reply : Except RouterError Unit)
    (later : Nat × List String) : Nat × List String :=
  match reply with
  | .ok _ | .error (.notFound _) => (later.1 + 1, later.2)
  | .error e => (later.1, (r.spec.name ++ ": " ++ e.message) :: later.2)

theorem removeAll_cons (r : RouterRule) (rules : List RouterRule) :
    removeAll (r :: rules) = (removeRule r.id).run.bind fun reply =>
      (removeAll rules).bind fun later => .done (counted r reply later) := by
  show (removeRule r.id).run.bind _ = _
  congr 1
  funext reply
  cases reply with
  | ok u => rfl
  | error e => cases e <;> rfl

theorem counted_eq (r : RouterRule) (reply : Except RouterError Unit) (n : Nat)
    (complaints : List String) :
    (Gone reply ∧ counted r reply (n, complaints) = (n + 1, complaints)) ∨
      (¬Gone reply ∧ ∃ complaint,
        counted r reply (n, complaints) = (n, complaint :: complaints)) := by
  cases reply with
  | ok u => exact Or.inl ⟨trivial, rfl⟩
  | error e =>
      cases e with
      | notFound what => exact Or.inl ⟨trivial, rfl⟩
      | _ => exact Or.inr ⟨not_false, _, rfl⟩

theorem removeAll_runs {removed : Nat} {complaints : List String}
    (h : Runs (removeAll rules) log (removed, complaints)) :
    ∃ tries : List Attempt, tries.map Prod.fst = rules ∧ log = tries.map removal ∧
      removed + complaints.length = tries.length ∧
      (complaints = [] ↔ ∀ attempt ∈ tries, Gone attempt.2) := by
  -- along the rules, each with the answer to its removal
  induction rules generalizing log removed complaints with
  | nil =>
      obtain ⟨heq, rfl⟩ := runs_done.mp h
      obtain ⟨rfl, rfl⟩ := Prod.mk.inj heq
      exact ⟨[], rfl, rfl, rfl, by simp⟩
  | cons r rules ih =>
      rw [removeAll_cons] at h
      obtain ⟨_, reply, _, rfl, hremove, hrest⟩ := runs_bind.mp h
      obtain rfl := runs_removeRule.mp hremove
      obtain ⟨_, ⟨n, later⟩, _, rfl, hlater, hdone⟩ := runs_bind.mp hrest
      obtain ⟨heq, rfl⟩ := runs_done.mp hdone
      obtain ⟨tries, hfst, rfl, hcount, hgone⟩ := ih hlater
      refine ⟨(r, reply) :: tries, by simp [hfst], by simp [removal], ?_⟩
      rcases counted_eq r reply n later with
        ⟨hthis, hcounted⟩ | ⟨hthis, complaint, hcounted⟩
      · obtain ⟨rfl, rfl⟩ := Prod.mk.inj (heq.trans hcounted)
        exact ⟨by simp; omega, by simp [hthis, hgone]⟩
      · obtain ⟨rfl, rfl⟩ := Prod.mk.inj (heq.trans hcounted)
        exact ⟨by simp; omega, by simp [hthis]⟩

theorem removing_of_runs {result : Except String Nat}
    (h : Runs (removeOwned key).run log result) : Removing key log result := by
  rcases runs_tryBind.mp h with ⟨_, rules, calls, rfl, hlist, hrest⟩ | ⟨_, hlist, rfl⟩
  · obtain rfl := runs_listRules.mp (runs_adapt_ok.mp hlist)
    obtain ⟨_, ⟨n, complaints⟩, _, rfl, hremove, hdone⟩ := runs_liftThen.mp hrest
    obtain ⟨tries, howned, rfl, hcount, hgone⟩ := removeAll_runs hremove
    dsimp only at hdone
    split at hdone
    · next hnone =>
        obtain ⟨rfl, rfl⟩ := runs_done.mp hdone
        obtain rfl := List.isEmpty_iff.mp hnone
        rw [List.append_nil, (by simpa using hcount : n = tries.length)]
        exact .cleared rules tries howned (hgone.mp rfl)
    · next hsome =>
        obtain ⟨rfl, rfl⟩ := runs_done.mp hdone
        rw [List.append_nil]
        refine .left rules tries _ howned (by_contra fun hnever => hsome ?_)
        have hall : ∀ attempt ∈ tries, Gone attempt.2 :=
          fun attempt hmem => by_contra fun hstays => hnever ⟨attempt, hmem, hstays⟩
        exact List.isEmpty_iff.mpr (hgone.mpr hall)
  · obtain ⟨e, hlisted, -⟩ := runs_adapt_error.mp hlist
    obtain rfl := runs_listRules.mp hlisted
    exact .unlisted e _

theorem asks_complete_not_onRouter (view : ServiceView) (n : Nat) :
    Asks (fun r => ¬r.OnRouter) (complete view n).run :=
  asks_complete view n (fun _ => not_false) not_false (fun _ => not_false) not_false
    fun _ => not_false

theorem asks_force_apart (view : ServiceView) (record : CleanupRecord) :
    Asks (fun r => ¬r.OnRouter ∧ ¬OffRecord r) (force view record).run := by
  have hapart : ¬False ∧ ¬False := ⟨not_false, not_false⟩
  apply asks_force
  · exact fun note => ⟨not_false, not_offRecord_write view note⟩
  · exact hapart
  · exact fun _ => hapart
  · exact hapart
  · exact fun _ => hapart

theorem forced_of_force {record : CleanupRecord} {outcome : CleanupOutcome}
    (h : Runs (force view record).run log (.ok outcome)) :
    outcome = .forced record.attempts := by
  obtain ⟨_, _, _, -, -, hpersist⟩ := runs_tryBind_ok.mp h
  obtain ⟨_, _, _, -, -, hremove⟩ := runs_tryBind_ok.mp hpersist
  obtain ⟨_, _, _, -, -, hrelease⟩ := runs_tryBind_ok.mp hremove
  obtain ⟨_, _, _, -, -, hdone⟩ := runs_tryBind_ok.mp hrelease
  exact Except.ok.inj (runs_done.mp hdone).1

theorem cleaning_of_attempt {time : Timestamp}
    {result : Except StoreError CleanupOutcome}
    (hbegins : Begins settings view time)
    (h : Runs (attempt settings view (recordOf view)).run log result) :
    Cleaning settings view (⟨.now, time⟩ :: log) result := by
  obtain ⟨_, time', _, rfl, hnow, hrest⟩ := runs_liftThen.mp h
  obtain rfl := runs_request.mp hnow
  rcases runs_tryBind.mp hrest with ⟨_, _, _, rfl, hstart, hgoes⟩ | ⟨e, hstart, rfl⟩
  · obtain rfl := runs_persist.mp hstart
    obtain ⟨removing, reply, rest, rfl, hremove, hends⟩ := runs_liftThen.mp hgoes
    have hremoving := removing_of_runs hremove
    cases reply with
    | ok n =>
        have hasks : Asks (fun r => ¬r.OnRouter) (do
            complete view n
            return CleanupOutcome.completed n :
                ExceptT StoreError Script CleanupOutcome).run :=
          (asks_complete_not_onRouter view n).tryBind fun _ => trivial
        have hrest := hasks.runs hends
        refine .completes time time' _ n removing rest result hbegins hremoving hrest ?_
        rintro outcome rfl
        obtain ⟨_, _, _, -, -, hdone⟩ := runs_tryBind_ok.mp hends
        exact Except.ok.inj (runs_done.mp hdone).1
    | error complaint =>
        rcases runs_tryBind.mp hends with ⟨_, _, _, rfl, hnote, hdone⟩ | ⟨e, hnote, rfl⟩
        · obtain rfl := runs_persist.mp hnote
          obtain ⟨rfl, rfl⟩ := runs_done.mp hdone
          exact .fails time time' _ _ complaint removing (.ok ()) _ hbegins hremoving
            fun _ heq => ⟨_, (Except.ok.inj heq).symm⟩
        · obtain rfl := runs_persist.mp hnote
          exact .fails time time' _ _ complaint removing (.error e) _ hbegins hremoving
            fun _ heq => absurd heq (by simp)
  · obtain rfl := runs_persist.mp hstart
    exact .unstarted time time' _ e hbegins

theorem cleaning_of_runs {result : Except StoreError CleanupOutcome}
    (h : Runs (pass settings view).run log result) :
    Cleaning settings view log result := by
  obtain ⟨_, time, rest, rfl, hnow, hrest⟩ := runs_liftThen.mp h
  obtain rfl := runs_request.mp hnow
  split at hrest
  · next after hwait =>
      obtain ⟨rfl, rfl⟩ := runs_done.mp hrest
      exact .waits time after _ hwait
  · next hdue =>
      split at hrest
      · next hspent =>
          exact .forces time rest result hspent ((asks_force_apart view _).runs hrest)
            fun outcome heq => forced_of_force (heq ▸ hrest)
      · next hleft => exact cleaning_of_attempt ⟨hdue, hleft⟩ hrest

/-! ## The rules go first -/

/-- The rules of a Service are gone, by these answers: the router has listed its
rules, and every owned one among them was then removed, or not found. -/
def Emptied (key : ServiceKey) (log : List Exchange) : Prop :=
  ∃ before rules since, log = before ++ ⟨.router .list, .ok rules⟩ :: since ∧
    ∀ r ∈ ownedRules key rules, ∃ reply, Gone reply ∧ removal (r, reply) ∈ since

theorem Emptied.append (h : Emptied key log) (more : List Exchange) :
    Emptied key (log ++ more) := by
  obtain ⟨before, rules, since, rfl, hgone⟩ := h
  refine ⟨before, rules, since ++ more, by simp, fun r hr => ?_⟩
  obtain ⟨reply, hreply, hmem⟩ := hgone r hr
  exact ⟨reply, hreply, List.mem_append_left more hmem⟩

theorem Emptied.later (h : Emptied key log) (first : List Exchange) :
    Emptied key (first ++ log) := by
  obtain ⟨before, rules, since, rfl, hgone⟩ := h
  exact ⟨first ++ before, rules, since, by simp, hgone⟩

theorem Removing.emptied {n : Nat} (h : Removing key log (.ok n)) :
    Emptied key log := by
  cases h with
  | cleared rules tries howned hgone =>
      refine ⟨[], rules, tries.map removal, rfl, ?_⟩
      intro r hr
      rw [← howned] at hr
      obtain ⟨⟨q, reply⟩, hmem, rfl⟩ := List.mem_map.mp hr
      exact ⟨reply, hgone _ hmem, List.mem_map_of_mem hmem⟩

theorem forall_removal {Q : Request → Prop} {tries : List Attempt}
    (hremove : ∀ id, Q (.router (.remove id))) : ∀ x ∈ tries.map removal, Q x.1 := by
  intro x hx
  obtain ⟨attempt, -, rfl⟩ := List.mem_map.mp hx
  exact hremove attempt.1.id

theorem Removing.forall {Q : Request → Prop} {result : Except String Nat}
    (h : Removing key log result) (hlist : Q (.router .list))
    (hremove : ∀ id, Q (.router (.remove id))) : ∀ x ∈ log, Q x.1 := by
  cases h with
  | unlisted e complaint => exact List.forall_mem_singleton.mpr hlist
  | cleared rules tries howned hgone =>
      exact List.forall_mem_cons.mpr ⟨hlist, forall_removal hremove⟩
  | left rules tries complaint howned hstays =>
      exact List.forall_mem_cons.mpr ⟨hlist, forall_removal hremove⟩

theorem Removing.onRouter {result : Except String Nat} (h : Removing key log result) :
    ∀ x ∈ log, x.1.OnRouter :=
  h.forall trivial fun _ => trivial

theorem none_begun {kind : Request → Prop} {time time' : Timestamp} {note : String}
    (hnow : ¬kind .now) (hwrite : ¬kind (write view note)) :
    ∀ x ∈ begun view time time' note, ¬kind x.1 := by
  unfold begun
  simp only [List.forall_mem_cons]
  exact ⟨hnow, hnow, hwrite, List.forall_mem_nil _⟩

theorem Removing.none_begun {kind : Request → Prop} {time time' : Timestamp}
    {note : String} {result : Except String Nat}
    (h : Removing view.key log result) (hnow : ¬kind .now)
    (hwrite : ¬kind (write view note)) (hrouter : ∀ call, ¬kind (.router call)) :
    ∀ x ∈ begun view time time' note ++ log, ¬kind x.1 := by
  rw [List.forall_mem_append]
  constructor
  · exact Removal.none_begun hnow hwrite
  · exact h.forall (Q := fun r => ¬kind r) (hrouter .list) fun id => hrouter (.remove id)

/-- **The record comes off only after the rules.** -/
theorem Cleaning.cleared {result : Except StoreError CleanupOutcome}
    (h : Cleaning settings view log result) :
    Preceded OffRecord (Emptied view.key) log := by
  have hwrite := not_offRecord_write view
  cases h with
  | waits time after error hwait =>
      exact preceded_of_none (List.forall_mem_singleton.mpr not_false)
  | forces time rest result hspent hrest hresult =>
      apply preceded_of_none
      exact List.forall_mem_cons.mpr ⟨not_false, fun x hx => (hrest x hx).2⟩
  | unstarted time time' note e hbegins =>
      apply preceded_of_none
      simp only [List.forall_mem_cons]
      exact ⟨not_false, not_false, hwrite note, List.forall_mem_nil _⟩
  | fails time time' note note' complaint removing reply result hbegins
      hremoving hresult =>
      apply preceded_of_none
      rw [← List.append_assoc]
      exact List.forall_mem_append.mpr
        ⟨hremoving.none_begun not_false (hwrite note) fun _ => not_false,
          List.forall_mem_singleton.mpr (hwrite note')⟩
  | completes time time' note n removing rest result hbegins hremoving hrest hresult =>
      rw [← List.append_assoc]
      apply preceded_append
      · exact fun before more h => h.append more
      · exact hremoving.none_begun not_false (hwrite note) fun _ => not_false
      · exact hremoving.emptied.later _

/-- The finalizer may come off after these exchanges: the attempts are used up, or
the router has listed its rules, and every owned one among them was removed or
found gone. -/
def Justified (settings : CleanupSettings) (view : ServiceView)
    (before : List Exchange) : Prop :=
  settings.maxRetries ≤ (recordOf view).attempts ∨
    ∃ rules, ⟨.router .list, .ok rules⟩ ∈ before ∧ ∀ r ∈ ownedRules view.key rules,
      ∃ reply, Gone reply ∧ removal (r, reply) ∈ before

/-- **The finalizer is touched only where it may come off.** -/
def Careful (settings : CleanupSettings) (view : ServiceView)
    (log : List Exchange) : Prop :=
  ∀ before x after, log = before ++ x :: after → OnFinalizers x.1 →
    Justified settings view before

theorem Justified.mono {before later : List Exchange}
    (h : Justified settings view before) (hsub : before ⊆ later) :
    Justified settings view later := by
  rcases h with hspent | ⟨rules, hlisted, hgone⟩
  · exact Or.inl hspent
  · refine Or.inr ⟨rules, hsub hlisted, fun r hr => ?_⟩
    obtain ⟨reply, hreply, hmem⟩ := hgone r hr
    exact ⟨reply, hreply, hsub hmem⟩

theorem careful_append {first last : List Exchange}
    (hfirst : ∀ x ∈ first, ¬OnFinalizers x.1)
    (hlast : Justified settings view first) :
    Careful settings view (first ++ last) :=
  preceded_append (fun _ _ h => h.mono (List.subset_append_left _ _)) hfirst hlast

theorem careful_of_untouched (h : ∀ x ∈ log, ¬OnFinalizers x.1) :
    Careful settings view log :=
  preceded_of_none h

/-- Where all owned rules were removed or found gone, the finalizer may come off. -/
theorem Emptied.justified (h : Emptied view.key log) :
    Justified settings view log := by
  obtain ⟨before, rules, since, rfl, hgone⟩ := h
  refine Or.inr ⟨rules, List.mem_append_right _ List.mem_cons_self, ?_⟩
  intro r hr
  obtain ⟨reply, hreply, hmem⟩ := hgone r hr
  exact ⟨reply, hreply, List.mem_append_right _ (List.mem_cons_of_mem _ hmem)⟩

theorem Cleaning.careful {result : Except StoreError CleanupOutcome}
    (h : Cleaning settings view log result) : Careful settings view log := by
  cases h with
  | waits time after error hwait =>
      exact careful_of_untouched (List.forall_mem_singleton.mpr not_false)
  | forces time rest result hspent hrest hresult =>
      exact careful_append (List.forall_mem_nil _) (Or.inl hspent)
  | unstarted time time' note e hbegins =>
      apply careful_of_untouched
      simp only [List.forall_mem_cons]
      exact ⟨not_false, not_false, not_false, List.forall_mem_nil _⟩
  | fails time time' note note' complaint removing reply result hbegins
      hremoving hresult =>
      apply careful_of_untouched
      rw [← List.append_assoc]
      exact List.forall_mem_append.mpr
        ⟨hremoving.none_begun not_false not_false fun _ => not_false,
          List.forall_mem_singleton.mpr not_false⟩
  | completes time time' note n removing rest result hbegins hremoving hrest hresult =>
      rw [← List.append_assoc]
      apply careful_append
      · exact hremoving.none_begun not_false not_false fun _ => not_false
      · exact (hremoving.emptied.later _).justified

/-! ## What is removed -/

theorem removed_eq_nil (h : ∀ x ∈ log, ¬x.1.OnRouter) : removed log = [] := by
  refine List.filterMap_eq_nil_iff.mpr ?_
  rintro ⟨request, reply⟩ hx
  cases request with
  | router call => exact absurd trivial (h _ hx)
  | store _ | memory _ | publish _ _ | cancelled | now | lock _ | unlock _ => rfl

theorem keeps_of_not_onRouter {r : Request} (h : ¬r.OnRouter) : Keeps r := by
  cases r with
  | router call => exact absurd trivial h
  | store _ | memory _ | publish _ _ | cancelled | now | lock _ | unlock _ =>
      exact trivial

theorem mem_of_removed {tries : List Attempt} {id : String}
    (h : id ∈ removed (tries.map removal)) : ∃ r ∈ tries.map Prod.fst, r.id = id := by
  obtain ⟨x, hx, hid⟩ := List.mem_filterMap.mp h
  obtain ⟨⟨r, reply⟩, hmem, rfl⟩ := List.mem_map.mp hx
  refine ⟨r, List.mem_map_of_mem hmem, ?_⟩
  cases reply with
  | ok u => exact Option.some.inj hid
  | error e => exact absurd hid (by simp [removed?, removal])

theorem absent_of_gone {tries : List Attempt}
    (h : Answered InMemory.May rules (tries.map removal) rules') :
    ∀ attempt ∈ tries, Gone attempt.2 → attempt.1.id ∉ ids rules' := by
  induction tries generalizing rules with
  | nil => exact fun _ hmem => absurd hmem List.not_mem_nil
  | cons first tries ih =>
      obtain ⟨between, now, later⟩ := answered_cons.mp h
      refine List.forall_mem_cons.mpr ⟨fun hgone hmem => ?_, ih later⟩
      -- the later removals bring nothing back
      have hleft := rules_of_answered later (forall_removal fun _ => trivial)
      have hstill : first.1.id ∈ ids between := by
        rw [hleft] at hmem
        exact (List.filter_sublist.map _).subset hmem
      obtain ⟨r, reply⟩ := first
      cases reply with
      | ok u =>
          obtain ⟨-, rfl⟩ := now
          obtain ⟨q, hq, hid⟩ := List.mem_map.mp hstill
          exact (mem_without.mp hq).2 hid
      | error e =>
          obtain ⟨hnone, rfl⟩ := now
          cases e with
          | notFound what => exact hnone what rfl hstill
          | _ => exact hgone

/-- **What comes of removing the owned rules.** -/
structure Removes (key : ServiceKey) (rules rules' : List RouterRule)
    (log : List Exchange) (result : Except String Nat) : Prop where
  owned : ∀ id ∈ removed log, ∃ r ∈ ownedRules key rules, r.id = id
  all : ∀ n, result = .ok n → n = (ownedRules key rules).length ∧
    ∀ r ∈ ownedRules key rules, r.id ∉ ids rules'

theorem Removing.removes {result : Except String Nat}
    (h : Removing key log result)
    (hrouter : Answered InMemory.May rules log rules') :
    Removes key rules rules' log result := by
  have hlisted : ∀ {listed : List RouterRule} {tries : List Attempt},
      Answered InMemory.May rules
        (⟨.router .list, .ok listed⟩ :: tries.map removal) rules' →
      listed = rules ∧ Answered InMemory.May rules (tries.map removal) rules' := by
    intro listed tries hanswered
    obtain ⟨between, ⟨rfl, rfl⟩, hlater⟩ := answered_cons.mp hanswered
    exact ⟨rfl, hlater⟩
  cases h with
  | unlisted e complaint =>
      exact ⟨fun _ hid => absurd hid List.not_mem_nil, fun n hok => absurd hok (by simp)⟩
  | cleared listed tries howned hgone =>
      obtain ⟨rfl, hanswered⟩ := hlisted hrouter
      refine ⟨fun id hid => howned ▸ mem_of_removed hid, fun n hn => ?_⟩
      obtain rfl := Except.ok.inj hn
      refine ⟨by rw [← howned, List.length_map], fun r hr => ?_⟩
      rw [← howned] at hr
      obtain ⟨attempt, hmem, rfl⟩ := List.mem_map.mp hr
      exact absent_of_gone hanswered attempt hmem (hgone attempt hmem)
  | left listed tries complaint howned hstays =>
      obtain ⟨rfl, -⟩ := hlisted hrouter
      exact ⟨fun id hid => howned ▸ mem_of_removed hid, fun n hn => absurd hn (by simp)⟩

/-! ## What comes of a pass -/

def written? : Exchange → Option Bool
  | ⟨.store (.patch _ (.annotations _)), reply⟩ => some (match reply with
    | .ok _ => true
    | .error _ => false)
  | _ => none

/-- No attempt is made: the last failure is too recent, the attempts are used up,
or the start of the attempt cannot be noted. -/
def Idle (settings : CleanupSettings) (view : ServiceView) (log : List Exchange) :
    Prop :=
  (∃ time rest after, log = ⟨.now, time⟩ :: rest ∧
    (recordOf view).retryWait settings.retryInterval time = some after) ∨
  settings.maxRetries ≤ (recordOf view).attempts ∨
  (log.filterMap written?).head? = some false

/-- The Service is still held, and carries nothing new but the record of
the cleanup. -/
structure Spared (s t : Stored) : Prop where
  finalizers : t.object.finalizers = s.object.finalizers
  annotation : ∀ name, name ≠ Mark.cleanupState →
    t.object.annotation? name = s.object.annotation? name

/-- **What comes of a cleanup pass**, on a router that keeps its rules in memory. -/
structure Tidied (settings : CleanupSettings) (view : ServiceView)
    (log : List Exchange) (result : Except StoreError CleanupOutcome)
    (rules rules' : List RouterRule) (s t : Stored) :
    Prop where
  /-- Owned rules go if their removal succeeds; all others stay as they are,
  in order. -/
  left : rules' = rules.filter fun r =>
    !(r.isOwnedBy view.key && (removed log).contains r.id)
  completed : ∀ n, result = .ok (.completed n) →
    rules' = rules.filter (fun r => !r.isOwnedBy view.key) ∧
      n = (ownedRules view.key rules).length
  retried : ∀ after attempts error, result = .ok (.retry after attempts error) →
    Spared s t
  idle : Idle settings view log → rules' = rules

theorem not_idle_begun {time time' : Timestamp} {note : String} {rest : List Exchange}
    (h : Begins settings view time) :
    ¬Idle settings view (begun view time time' note ++ rest) := by
  rintro (⟨time'', rest', after, heq, hwait⟩ | hspent | hfailed)
  · obtain ⟨hnow, -⟩ := List.cons.inj heq
    cases hnow
    exact absurd (h.due.symm.trans hwait) (by simp)
  · exact h.left hspent
  · have hnoted : (begun view time time' note ++ rest).filterMap written? =
        true :: rest.filterMap written? := rfl
    rw [hnoted] at hfailed
    exact absurd hfailed (by simp)

/-- **How a pass deals with the router**: not at all, or while it removes the
owned rules. -/
theorem Cleaning.removing {result : Except StoreError CleanupOutcome}
    (h : Cleaning settings view log result) :
    ((∀ x ∈ log, ¬x.1.OnRouter) ∧ ∀ n, result ≠ .ok (.completed n)) ∨
    ∃ first during last reply, log = first ++ (during ++ last) ∧
      (∀ x ∈ first, ¬x.1.OnRouter) ∧ (∀ x ∈ last, ¬x.1.OnRouter) ∧
      Removing view.key during reply ∧
      (∀ n, result = .ok (.completed n) → reply = .ok n) ∧
      ¬Idle settings view log := by
  cases h with
  | waits time after error hwait =>
      exact Or.inl ⟨List.forall_mem_singleton.mpr not_false, fun n => by simp⟩
  | forces time rest result hspent hrest hresult =>
      have hquiet : ∀ x ∈ rest, ¬x.1.OnRouter := fun x hx => (hrest x hx).1
      refine Or.inl ⟨List.forall_mem_cons.mpr ⟨not_false, hquiet⟩, fun n hn => ?_⟩
      exact absurd (hresult _ hn) (by simp)
  | unstarted time time' note e hbegins =>
      refine Or.inl ⟨?_, fun n => by simp⟩
      simp only [List.forall_mem_cons]
      exact ⟨not_false, not_false, not_false, List.forall_mem_nil _⟩
  | fails time time' note note' complaint during reply result hbegins hremoving hresult =>
      refine Or.inr ⟨begun view time time' note, during,
        [⟨write view note', reply⟩], _, rfl, none_begun not_false not_false,
        List.forall_mem_singleton.mpr not_false, hremoving, fun n hn => ?_,
        not_idle_begun hbegins⟩
      obtain ⟨attempts, hretry⟩ := hresult _ hn
      exact absurd hretry (by simp)
  | completes time time' note n during rest result hbegins hremoving hrest hresult =>
      refine Or.inr ⟨begun view time time' note, during, rest, _, rfl,
        none_begun not_false not_false, hrest, hremoving, fun m hm => ?_,
        not_idle_begun hbegins⟩
      exact congrArg Except.ok (CleanupOutcome.completed.inj (hresult _ hm)).symm

theorem rules_of_untouched (h : Answered InMemory.May rules log rules')
    (hquiet : ∀ x ∈ log, ¬x.1.OnRouter) : rules' = rules := by
  rw [rules_of_answered h fun x hx => keeps_of_not_onRouter (hquiet x hx),
    removed_eq_nil hquiet]
  exact leftOf_nil

theorem leftOf_of_owned {gone : List String} (hnd : (ids rules).Nodup)
    (howned : ∀ id ∈ gone, ∃ r ∈ ownedRules key rules, r.id = id) :
    leftOf gone rules = rules.filter fun r =>
      !(r.isOwnedBy key && gone.contains r.id) := by
  refine List.filter_congr fun r hr => ?_
  cases hgone : gone.contains r.id with
  | false => rw [Bool.and_false]
  | true =>
      obtain ⟨q, hq, hid⟩ := howned r.id (List.contains_iff_mem.mp hgone)
      obtain ⟨hmem, hownedBy⟩ := List.mem_filter.mp hq
      rw [eq_of_id_eq hnd hr hmem hid.symm, hownedBy, Bool.and_true]

theorem leftOf_removed (hnd : (ids rules).Nodup)
    (h : Answered InMemory.May rules log rules') (hkeeps : ∀ x ∈ log, Keeps x.1)
    (howned : ∀ id ∈ removed log, ∃ r ∈ ownedRules key rules, r.id = id) :
    rules' = rules.filter fun r =>
      !(r.isOwnedBy key && (removed log).contains r.id) :=
  (rules_of_answered h hkeeps).trans (leftOf_of_owned hnd howned)

theorem eq_unowned {gone : List String}
    (h : rules' = rules.filter fun r => !(r.isOwnedBy key && gone.contains r.id))
    (hall : ∀ r ∈ ownedRules key rules, r.id ∉ ids rules') :
    rules' = rules.filter fun r => !r.isOwnedBy key := by
  rw [h] at hall ⊢
  refine List.filter_congr fun r hr => ?_
  cases howned : r.isOwnedBy key with
  | false => rfl
  | true =>
      by_contra hstays
      -- an owned rule that stayed would still be found under its identifier
      refine hall r (List.mem_filter.mpr ⟨hr, howned⟩) ?_
      refine mem_ids_of_mem (List.mem_filter.mpr ⟨hr, ?_⟩)
      rw [howned]
      simpa using hstays

/-! ## What is left on the Service -/

/-- A request by which nothing changes on the Service but the record of
the cleanup. -/
def Sparing (view : ServiceView) (r : Request) : Prop :=
  r.OnRouter ∨ r = .now ∨ ∃ note, r = write view note

variable {s t u : Stored}

theorem Spared.refl (s : Stored) : Spared s s :=
  ⟨rfl, fun _ _ => rfl⟩

theorem Spared.trans (h : Spared s t) (h' : Spared t u) : Spared s u :=
  ⟨h'.finalizers.trans h.finalizers,
    fun name hname => (h'.annotation name hname).trans (h.annotation name hname)⟩

theorem Sparing.spared {r : Request} {reply : r.Reply} (hr : Sparing view r)
    (h : Stored.May s r reply t) : Spared s t := by
  rcases hr with hrouter | rfl | ⟨note, rfl⟩
  · cases r with
    | router call =>
        obtain rfl : t = s := h
        exact .refl t
    | store _ | memory _ | publish _ _ | cancelled | now | lock _ | unlock _ =>
        exact hrouter.elim
  · obtain ⟨-, rfl⟩ := h
    exact ⟨rfl, fun _ _ => rfl⟩
  · cases reply with
    | error e =>
        obtain rfl : t = { s with failed := true } := h
        exact ⟨rfl, fun _ _ => rfl⟩
    | ok done =>
        have hpatched : if view.key = s.object.key then
            s.gone = false ∧ ∃ object,
              Patched (.annotations [(Mark.cleanupState, some note)]) s.object object ∧
                t = { s with object := object }
          else t = s := h
        split at hpatched
        · obtain ⟨-, object, ⟨hlookup, hrest⟩, rfl⟩ := hpatched
          refine ⟨by rw [hrest], fun name hname => ?_⟩
          rw [hlookup, List.lookup_cons, beq_false_of_ne hname]
          rfl
        · rw [hpatched]
          exact .refl s

theorem spared_of_answered (h : Answered Stored.May s log t)
    (hsparing : ∀ x ∈ log, Sparing view x.1) : Spared s t :=
  h.preserves (P := Spared s) (fun hx hspared hmay =>
    hspared.trans ((hsparing _ hx).spared hmay)) (.refl s)

theorem Cleaning.sparing {after : Nat} {attempts : UInt32} {error : String}
    (h : Cleaning settings view log (.ok (.retry after attempts error))) :
    ∀ x ∈ log, Sparing view x.1 := by
  have hnow : Sparing view .now := Or.inr (Or.inl rfl)
  cases h with
  | waits time after error hwait => exact List.forall_mem_singleton.mpr hnow
  | forces time rest result hspent hrest hresult => exact absurd (hresult _ rfl) (by simp)
  | completes time time' note n during rest result hbegins hremoving hrest hresult =>
      exact absurd (hresult _ rfl) (by simp)
  | fails time time' note note' complaint during reply result hbegins hremoving hresult =>
      have hwrite : ∀ note, Sparing view (write view note) :=
        fun note => Or.inr (Or.inr ⟨note, rfl⟩)
      simp only [begun, List.forall_mem_append, List.forall_mem_cons]
      exact ⟨⟨hnow, hnow, hwrite note, List.forall_mem_nil _⟩,
        fun x hx => Or.inl (hremoving.onRouter x hx), hwrite note', List.forall_mem_nil _⟩

/-! ## What comes of a pass, as a whole -/

theorem Cleaning.tidied {result : Except StoreError CleanupOutcome} {s t : Stored}
    (h : Cleaning settings view log result) (hnd : (ids rules).Nodup)
    (hrouter : Answered InMemory.May rules log rules')
    (hstore : Answered Stored.May s log t) :
    Tidied settings view log result rules rules' s t := by
  have hspared : ∀ after attempts error, result = .ok (.retry after attempts error) →
      Spared s t := by
    rintro after attempts error rfl
    exact spared_of_answered hstore h.sparing
  rcases h.removing with ⟨hquiet, hnever⟩ |
    ⟨first, during, last, reply, rfl, hfirst, hlast, hremoving, hcompleted, hbusy⟩
  · have hnone : ∀ id ∈ removed log, ∃ r ∈ ownedRules view.key rules, r.id = id := by
      rw [removed_eq_nil hquiet]
      exact List.forall_mem_nil _
    have hleft := leftOf_removed hnd hrouter (fun x hx =>
      keeps_of_not_onRouter (hquiet x hx)) hnone
    exact ⟨hleft, fun n hn => absurd hn (hnever n), hspared,
      fun _ => rules_of_untouched hrouter hquiet⟩
  · -- before and after the removal the router is left alone
    obtain ⟨before, hbefore, hrest⟩ := answered_append.mp hrouter
    obtain rfl := rules_of_untouched hbefore hfirst
    obtain ⟨after, hduring, hafter⟩ := answered_append.mp hrest
    obtain rfl := rules_of_untouched hafter hlast
    have hremoves := hremoving.removes hduring
    have hremoved : removed (first ++ (during ++ last)) = removed during := by
      rw [removed_append, removed_append, removed_eq_nil hfirst, removed_eq_nil hlast,
        List.nil_append, List.append_nil]
    have hkeeps : ∀ x ∈ during, Keeps x.1 := hremoving.forall trivial fun _ => trivial
    have hleft := leftOf_removed hnd hduring hkeeps hremoves.owned
    refine ⟨hremoved ▸ hleft, fun n hn => ?_, hspared, fun hidle => absurd hidle hbusy⟩
    obtain ⟨hcount, hall⟩ := hremoves.all n (hcompleted n hn)
    exact ⟨eq_unowned hleft hall, hcount⟩

/-- **The finalizer goes only after real cleanup.** It is touched where the
attempts are used up, or after every owned rule that the router has listed was
removed or found gone. On a router that keeps its rules in memory nothing but
owned rules ever goes. -/
theorem finalizer_after_cleanup {result : Except StoreError CleanupOutcome}
    (h : Runs (pass settings view).run log result) :
    Careful settings view log ∧ ∀ (rules rules' : List RouterRule) (s t : Stored),
      (ids rules).Nodup → Answered InMemory.May rules log rules' →
        Answered Stored.May s log t →
      Tidied settings view log result rules rules' s t := by
  have hcleaning := cleaning_of_runs h
  exact ⟨hcleaning.careful, fun rules rules' s t => hcleaning.tidied⟩

end PortForwarding.Removal

/-! ## A rule that cannot be removed -/

namespace PortForwarding.Sample

open Removal Script Simulation

def beside : Surroundings (Router × Stored)
  | .router call, x => ((x.1.answer call).1, ((x.1.answer call).2, x.2))
  | r, x => ((Stored.answer epoch r x.2).1, (x.1, (Stored.answer epoch r x.2).2))

theorem beside_steady (r : Request) (x : Router × Stored) (h : x.1.Steady) :
    (beside r x).2.1.Steady := by
  cases r with
  | router call => exact (h.answer_may call).2
  | store _ | memory _ | publish _ _ | cancelled | now | lock _ | unlock _ => exact h

theorem beside_listing (r : Request) (x : Router × Stored) (h : x.1.Steady) :
    InMemory.May x.1.rules r (beside r x).1 (beside r x).2.1.rules := by
  cases r with
  | router call => exact (h.answer_may call).1
  | store _ | memory _ | publish _ _ | cancelled | now | lock _ | unlock _ => exact rfl

theorem beside_stored (r : Request) (x : Router × Stored) :
    Stored.May x.2 r (beside r x).1 (beside r x).2.2 := by
  cases r with
  | router call => exact rfl
  | store _ | memory _ | publish _ _ | cancelled | now | lock _ | unlock _ =>
      exact Stored.answer_may epoch_reading _ x.2

/-- A router with two rules of the Service, one of which it does not remove, and
one that somebody has made by hand. -/
def reluctant : Router :=
  let seed (r : Router) (spec : RuleSpec) : Router := r.interfere (.seed spec)
  let https := (wish "https" 443 8443).spec
  (seed (seed (seed .empty http.spec) https) byHand.spec).failName https.name

theorem reluctant_steady : reluctant.Steady where
  vanishing := rfl
  calls := List.forall_mem_nil _
  ids_nodup := by decide +kernel
  ids_made := by decide +kernel

def attempted : Except StoreError CleanupOutcome × Router × Stored :=
  run beside (Cleanup.pass oneAttempt view).run (reluctant, doomed)

def attemptedLog : List Exchange :=
  (trace beside (Cleanup.pass oneAttempt view).run (reluctant, doomed)).map Prod.fst

end PortForwarding.Sample

namespace PortForwarding.Removal

open Sample Script

theorem finalizer_after_cleanup_sample :
    Careful oneAttempt view attemptedLog ∧
    Tidied oneAttempt view attemptedLog attempted.1 reluctant.rules
      attempted.2.1.rules doomed attempted.2.2 ∧
    attempted.2.1.rules.map RouterRule.id = ["r2", "r3"] ∧
    attempted.2.2.object.finalizers = [Mark.finalizer] := by
  obtain ⟨hcareful, htidied⟩ := finalizer_after_cleanup
    (runs_trace beside (Cleanup.pass oneAttempt view).run (reluctant, doomed))
  have hrouter : Answered InMemory.May reluctant.rules attemptedLog attempted.2.1.rules :=
    answered_trace (f := fun x => x.1.rules) beside_listing beside_steady
      (Cleanup.pass oneAttempt view).run (x := (reluctant, doomed)) reluctant_steady
  have hstore : Answered Stored.May doomed attemptedLog attempted.2.2 :=
    answered_trace (f := Prod.snd) (P := fun _ => True)
      (fun r x _ => beside_stored r x) (fun _ _ _ => trivial)
      (Cleanup.pass oneAttempt view).run (x := (reluctant, doomed)) trivial
  have h := htidied _ _ _ _ reluctant_steady.ids_nodup hrouter hstore
  have hresult : attempted.1 =
      .ok (.retry 0 1 ("1 of 2 rule(s) not removed: default/web:https: " ++
        (Simulation.Router.injected "remove").message)) := by
    decide +kernel
  refine ⟨hcareful, h, ?_, (h.retried _ _ _ hresult).finalizers⟩
  have hremoved : InMemory.removed attemptedLog = ["r1"] := by
    decide +kernel
  have hleft : attempted.2.1.rules = reluctant.rules.filter fun r =>
      !(r.isOwnedBy view.key && (InMemory.removed attemptedLog).contains r.id) := h.left
  rw [hleft, hremoved]
  decide +kernel

end PortForwarding.Removal
