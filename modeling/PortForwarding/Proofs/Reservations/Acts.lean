import Mathlib.Data.List.Basic
import PortForwarding.Desired
import PortForwarding.Proofs.Reservations.Holders

/-!
# Reservations over any course of acts

The passes of all Services share the reservations, and each of them claims, keeps
and gives back ports on behalf of its own. An `Act` is one such thing, and whoever
acts next after any course of acts, the act is `Lawful`: it leaves alone what
others have, a claim is refused exactly because of somebody who has a port of it,
and what fails has changed nothing.

A Service that has worked out its rules with success and has given no port back
since is `Standing`. No two such Services want a common external port
(`acts_lawful`).
-/

namespace PortForwarding.Reservations

/-! ## Acts -/

/-- What is done to the reservations on behalf of a Service. -/
inductive Act where
  | claim (key : ServiceKey) (ports : List UInt16)
  | retain (key : ServiceKey) (keep : List UInt16)
  | release (key : ServiceKey) (port : UInt16)
  | releaseAll (key : ServiceKey)
  /-- The rules that the Service wants are worked out, and their external
  ports claimed. -/
  | calculate (view : ServiceView) (defaults : RuleDefaults)

namespace Act

def key : Act → ServiceKey
  | .claim key _ | .retain key _ | .release key _ | .releaseAll key => key
  | .calculate view _ => view.key

/-- The answer to an act, with the rules that it has worked out, and the
reservations after it. -/
def perform (r : Reservations) :
    Act → Except DesiredError (List DesiredRule) × Reservations
  | .claim key ports =>
    match r.claim key ports with
    | .ok r' => (.ok [], r')
    | .error c => (.error (.conflict c), r)
  | .retain key keep => (.ok [], r.retain key keep)
  | .release key port => (.ok [], r.release key port)
  | .releaseAll key => (.ok [], r.releaseAll key)
  | .calculate view defaults =>
    match Desired.calculate r view defaults with
    | .ok (rules, r') => (.ok rules, r')
    | .error e => (.error e, r)

def answer (act : Act) (r : Reservations) : Except DesiredError (List DesiredRule) :=
  (act.perform r).1

def next (act : Act) (r : Reservations) : Reservations :=
  (act.perform r).2

/-- The ports that the act asks for. Rules that cannot be worked out ask
for none. -/
def requested? : Act → Option (List UInt16)
  | .claim _ ports => some ports
  | .calculate view defaults =>
      (Desired.rulesFor view defaults).toOption.map Desired.externalPorts
  | .retain _ _ | .release _ _ | .releaseAll _ => none

end Act

variable {r : Reservations} {act : Act} {acts : List Act} {ports : List UInt16}
  {p : UInt16} {key other : ServiceKey} {c : PortConflict}

/-! ## Conflicts -/

/-- Another Service has the port of a conflict, and none of a lower port that is
asked for. -/
structure LowestTaken (r : Reservations) (key : ServiceKey) (ports : List UInt16)
    (c : PortConflict) : Prop where
  asked : c.port ∈ ports
  taken : r.holder? c.port = some c.holder
  other : c.holder ≠ key
  lowest : ∀ p ∈ ports, ∀ k, r.holder? p = some k → k ≠ key → c.port ≤ p

theorem sorted_ports (ports : List UInt16) : ports.mergeSort.Pairwise (· ≤ ·) := by
  have hsorted : ports.mergeSort.Pairwise fun p q => decide (p ≤ q) = true :=
    List.pairwise_mergeSort (fun p q s => by simpa using UInt16.le_trans)
      (fun p q => by simpa using UInt16.le_total p q) ports
  simpa using hsorted

/-- **A conflict is told by the lowest port that is taken.** -/
theorem lowestTaken_of_conflict? (h : r.conflict? key ports = some c) :
    LowestTaken r key ports c := by
  obtain ⟨before, port, after, hsplit, hport, hbefore⟩ := List.findSome?_eq_some_iff.mp h
  have hmem : ∀ p, p ∈ ports ↔ p ∈ before ++ port :: after := by
    intro p
    rw [← hsplit, List.mem_mergeSort]
  cases hholder : r.holder? port with
  | none => exact absurd hport (by simp [hholder])
  | some holder =>
      obtain ⟨hne, rfl⟩ : holder ≠ key ∧ ⟨port, holder⟩ = c := by
        by_cases heq : holder = key
        · exact absurd hport (by simp [hholder, heq])
        · exact ⟨heq, by simpa [hholder, heq] using hport⟩
      refine ⟨(hmem port).mpr (by simp), hholder, hne, fun p hp k hk hother => ?_⟩
      have hsorted := sorted_ports ports
      rw [hsplit, List.pairwise_append, List.pairwise_cons] at hsorted
      rcases List.mem_append.mp ((hmem p).mp hp) with hearly | hlate
      · exact absurd (hbefore p hearly) (by simp [hk, hother])
      · rcases List.mem_cons.mp hlate with rfl | hlate
        · exact UInt16.le_refl p
        · exact hsorted.2.1.1 p hlate

/-! ## One act -/

theorem Act.claims_of_perform (rules : List DesiredRule)
    (hok : ∀ r', r.claim act.key ports = .ok r' → act.perform r = (.ok rules, r'))
    (herror : ∀ c, r.claim act.key ports = .error c →
      act.perform r = (.error (.conflict c), r)) :
    (∃ c, r.claim act.key ports = .error c ∧ act.answer r = .error (.conflict c) ∧
        act.next r = r) ∨
      (∃ r' rules, r.claim act.key ports = .ok r' ∧ act.answer r = .ok rules ∧
        act.next r = r') := by
  cases hclaim : r.claim act.key ports with
  | ok r' =>
      have hperform := hok r' hclaim
      exact Or.inr ⟨r', rules, rfl, congrArg Prod.fst hperform,
        congrArg Prod.snd hperform⟩
  | error c =>
      have hperform := herror c hclaim
      exact Or.inl ⟨c, rfl, congrArg Prod.fst hperform, congrArg Prod.snd hperform⟩

/-- What asks for ports is a claim on them, whatever else comes of it. -/
theorem Act.claims (h : act.requested? = some ports) :
    (∃ c, r.claim act.key ports = .error c ∧ act.answer r = .error (.conflict c) ∧
        act.next r = r) ∨
      (∃ r' rules, r.claim act.key ports = .ok r' ∧ act.answer r = .ok rules ∧
        act.next r = r') := by
  cases act with
  | claim key asked =>
      obtain rfl := Option.some.inj h
      refine Act.claims_of_perform [] (fun r' hclaim => ?_) (fun c hclaim => ?_)
      · simp only [Act.key] at hclaim
        simp only [Act.perform, hclaim]
      · simp only [Act.key] at hclaim
        simp only [Act.perform, hclaim]
  | calculate view defaults =>
      unfold Act.requested? at h
      cases hrules : Desired.rulesFor view defaults with
      | error e => exact absurd h (by simp [hrules, Except.toOption])
      | ok rules =>
          obtain rfl : Desired.externalPorts rules = ports := by
            simpa [hrules, Except.toOption] using h
          refine Act.claims_of_perform rules (fun r' hclaim => ?_) (fun c hclaim => ?_)
          · simp only [Act.key] at hclaim
            simp only [Act.perform, Desired.calculate, hrules, hclaim]
          · simp only [Act.key] at hclaim
            simp only [Act.perform, Desired.calculate, hrules, hclaim]
  | retain _ _ | release _ _ | releaseAll _ => exact absurd h (by simp [Act.requested?])

/-- The ports of the rules that were worked out are those that were asked for. -/
theorem Act.requested?_of_answer {view : ServiceView} {defaults : RuleDefaults}
    {rules : List DesiredRule}
    (h : (Act.calculate view defaults).answer r = .ok rules) :
    (Act.calculate view defaults).requested? =
      some (Desired.externalPorts rules) := by
  unfold Act.answer at h
  unfold Act.requested?
  cases hrules : Desired.rulesFor view defaults with
  | error e => exact absurd h (by simp [Act.perform, Desired.calculate, hrules])
  | ok worked =>
      cases hclaim : r.claim view.key (Desired.externalPorts worked) with
      | error c =>
          exact absurd h
            (by simp [Act.perform, Desired.calculate, hrules, hclaim])
      | ok r' =>
          obtain rfl : worked = rules := by
            simpa [Act.perform, Desired.calculate, hrules, hclaim] using h
          simp [hrules, Except.toOption]

theorem Act.idle {view : ServiceView} {defaults : RuleDefaults}
    (h : (Act.calculate view defaults).requested? = none) :
    (Act.calculate view defaults).next r = r := by
  unfold Act.requested? at h
  unfold Act.next
  cases hrules : Desired.rulesFor view defaults with
  | error e => simp only [Act.perform, Desired.calculate, hrules]
  | ok rules => exact absurd h (by simp [hrules, Except.toOption])

theorem holder?_releaseAll :
    (r.releaseAll key).holder? p =
      if r.holder? p = some key then none else r.holder? p := by
  unfold releaseAll
  rw [holder?_retain]
  simp

/-- **An act for one Service is nothing to another.** -/
theorem holder?_next_of_ne (hne : other ≠ act.key) :
    (act.next r).holder? p = some other ↔ r.holder? p = some other := by
  -- a port that is given back was the Service's own, and one that is claimed was
  -- nobody else's
  have hclaims : ∀ ports, act.requested? = some ports →
      ((act.next r).holder? p = some other ↔ r.holder? p = some other) := by
    intro ports hports
    rcases Act.claims hports with ⟨c, -, -, hnext⟩ | ⟨r', rules, hclaim, -, hnext⟩
    · rw [hnext]
    · obtain ⟨hown, hafter⟩ := holder?_of_claim hclaim
      rw [hnext, hafter p]
      by_cases hp : p ∈ ports
      · rw [if_pos hp]
        exact ⟨fun h => absurd (Option.some.inj h).symm hne,
          fun h => absurd (hown p hp other h) hne⟩
      · rw [if_neg hp]
  have hgives : ∀ held : Prop, [Decidable held] → (held → r.holder? p = some act.key) →
      ((if held then none else r.holder? p) = some other ↔ r.holder? p = some other) := by
    intro held _ hheld
    split
    · next h => simp [hheld h, Ne.symm hne]
    · exact Iff.rfl
  cases act with
  | claim key asked => exact hclaims asked rfl
  | calculate view defaults =>
      cases hports : (Act.calculate view defaults).requested? with
      | some ports => exact hclaims ports hports
      | none => rw [Act.idle hports]
  | retain key keep =>
      show (r.retain key keep).holder? p = some other ↔ _
      rw [holder?_retain]
      exact hgives _ And.left
  | release key port =>
      show (r.release key port).holder? p = some other ↔ _
      rw [holder?_release]
      exact hgives _ And.right
  | releaseAll key =>
      show (r.releaseAll key).holder? p = some other ↔ _
      rw [holder?_releaseAll]
      exact hgives _ id

theorem next_of_error {e : DesiredError} (h : act.answer r = .error e) :
    act.next r = r := by
  cases hports : act.requested? with
  | some ports =>
      rcases Act.claims hports with ⟨c, -, -, hnext⟩ | ⟨r', rules, -, hanswer, -⟩
      · exact hnext
      · exact absurd (hanswer.symm.trans h) (by simp)
  | none =>
      cases act with
      | claim key asked => exact absurd hports (by simp [Act.requested?])
      | calculate view defaults => exact Act.idle hports
      | retain _ _ | release _ _ | releaseAll _ =>
          exact absurd h (by simp [Act.answer, Act.perform])

/-- **What an act does, and what it leaves alone.** -/
structure Lawful (r : Reservations) (act : Act) : Prop where
  /-- No other Service gains or loses a port. -/
  others : ∀ other, other ≠ act.key →
    ∀ p, p ∈ (act.next r).portsOf other ↔ p ∈ r.portsOf other
  /-- What is asked for is refused exactly if another Service has some of it. -/
  refused : ∀ ports, act.requested? = some ports →
    ((∃ c, act.answer r = .error (.conflict c)) ↔
      ∃ p ∈ ports, ∃ k, r.holder? p = some k ∧ k ≠ act.key)
  /-- It is told by the lowest port that another Service has. -/
  told : ∀ ports, act.requested? = some ports → ∀ c, act.answer r = .error (.conflict c) →
    LowestTaken r act.key ports c
  /-- An act that fails, for whatever reason, changes nothing. -/
  unchanged : ∀ e, act.answer r = .error e → act.next r = r
  /-- What is not refused is granted, in addition to what the Service has. -/
  granted : ∀ ports, act.requested? = some ports →
    (∀ p ∈ ports, ∀ k, r.holder? p = some k → k = act.key) →
    (∃ rules, act.answer r = .ok rules) ∧
      ∀ p, p ∈ (act.next r).portsOf act.key ↔ p ∈ r.portsOf act.key ∨ p ∈ ports

/-- **Every act is lawful.** -/
theorem lawful (r : Reservations) (act : Act) : Lawful r act := by
  constructor
  · intro other hne p
    rw [mem_portsOf, mem_portsOf]
    exact holder?_next_of_ne hne
  · intro ports hports
    rcases Act.claims hports with ⟨c, hclaim, hanswer, -⟩ | ⟨r', rules,
      hclaim, hanswer, -⟩
    · refine ⟨fun _ => ?_, fun _ => ⟨c, hanswer⟩⟩
      have htaken := lowestTaken_of_conflict? (conflict?_of_claim hclaim)
      exact ⟨c.port, htaken.asked, c.holder, htaken.taken, htaken.other⟩
    · constructor
      · rintro ⟨c, hrefused⟩
        exact absurd (hanswer.symm.trans hrefused) (by simp)
      · rintro ⟨p, hp, k, hk, hne⟩
        exact absurd ((holder?_of_claim hclaim).1 p hp k hk) hne
  · intro ports hports c hrefused
    rcases Act.claims hports with ⟨c', hclaim, hanswer, -⟩ | ⟨r', rules, -, hanswer, -⟩
    · obtain rfl : c' = c := by simpa using hanswer.symm.trans hrefused
      exact lowestTaken_of_conflict? (conflict?_of_claim hclaim)
    · exact absurd (hanswer.symm.trans hrefused) (by simp)
  · exact fun e h => next_of_error h
  · intro ports hports hfree
    obtain ⟨granted, hgranted⟩ := exists_claim hfree
    rcases Act.claims hports with ⟨c, hclaim, -, -⟩ | ⟨r', rules, hclaim, hanswer, hnext⟩
    · exact absurd (hgranted.symm.trans hclaim) (by simp)
    · refine ⟨⟨rules, hanswer⟩, fun p => ?_⟩
      rw [hnext, mem_portsOf, mem_portsOf, (holder?_of_claim hclaim).2 p]
      by_cases hp : p ∈ ports <;> simp [hp]

/-! ## A course of acts -/

def after (r : Reservations) (acts : List Act) : Reservations :=
  acts.foldl (fun r act => act.next r) r

def GivesNothingBack (key : ServiceKey) : Reservations → List Act → Prop
  | _, [] => True
  | r, act :: acts =>
    (act.key = key → ∀ p, r.holder? p = some key → (act.next r).holder? p = some key) ∧
      GivesNothingBack key (act.next r) acts

/-- **The Service has worked out these rules with success and has given nothing
back since.** -/
def Standing (r : Reservations) (acts : List Act) (key : ServiceKey)
    (rules : List DesiredRule) : Prop :=
  ∃ before view defaults since,
    acts = before ++ .calculate view defaults :: since ∧ view.key = key ∧
    (Act.calculate view defaults).answer (r.after before) = .ok rules ∧
    GivesNothingBack key ((Act.calculate view defaults).next (r.after before)) since

theorem holder?_after (h : GivesNothingBack key r acts)
    (hp : r.holder? p = some key) : (r.after acts).holder? p = some key := by
  induction acts generalizing r with
  | nil => exact hp
  | cons act acts ih =>
      obtain ⟨hact, hacts⟩ := h
      refine ih hacts ?_
      by_cases hkey : act.key = key
      · exact hact hkey p hp
      · exact (holder?_next_of_ne (Ne.symm hkey)).mpr hp

theorem Standing.holder? {rules : List DesiredRule} (h : Standing r acts key rules)
    (hp : p ∈ Desired.externalPorts rules) : (r.after acts).holder? p = some key := by
  obtain ⟨before, view, defaults, since, rfl, rfl, hanswer, hsince⟩ := h
  have hafter : r.after (before ++ .calculate view defaults :: since) =
      ((Act.calculate view defaults).next (r.after before)).after since := by
    unfold after
    rw [List.foldl_append, List.foldl_cons]
  rw [hafter]
  refine holder?_after hsince ?_
  rcases Act.claims (Act.requested?_of_answer hanswer) with
    ⟨c, -, hrefused, -⟩ | ⟨r', rules', hclaim, -, hnext⟩
  · exact absurd (hanswer.symm.trans hrefused) (by simp)
  · rw [hnext, (holder?_of_claim hclaim).2 p, if_pos hp]
    rfl

/-- **The laws of reservation.** After any course of acts, whatever is done next
is lawful, and two Services that stand want no common external port. -/
theorem acts_lawful (r : Reservations) (acts : List Act) :
    (∀ act, Lawful (r.after acts) act) ∧
    ∀ key other rules rules', key ≠ other → Standing r acts key rules →
      Standing r acts other rules' →
      (Desired.externalPorts rules).Disjoint (Desired.externalPorts rules') := by
  refine ⟨lawful _, fun key other rules rules' hne hstands hother p hp hp' => ?_⟩
  have hmine := hstands.holder? hp
  have hyours := hother.holder? hp'
  exact hne (Option.some.inj (hmine.symm.trans hyours))

/-! ## Two Services that stand, and claims that are refused -/

namespace Sample

def asking (name port : String) (number : UInt16) : ServiceView :=
  { key := ⟨"default", name⟩
    annotations := [(Mark.ports, port)]
    ports := [⟨port, number, "TCP"⟩]
    destination := some (.v4 10 0 0 5)
    deleting := false
    hasFinalizer := true
    reference := default }

def web : ServiceView := asking "web" "http" 80

def api : ServiceView := asking "api" "https" 443

def late : ServiceView := asking "late" "tls" 443

def webRule : DesiredRule :=
  Desired.rule web {} (.v4 10 0 0 5) ⟨"http", 80, "TCP"⟩ 80 .tcp

def apiRule : DesiredRule :=
  Desired.rule api {} (.v4 10 0 0 5) ⟨"https", 443, "TCP"⟩ 443 .tcp

def course : List Act :=
  [.calculate web {}, .calculate api {}, .claim web.key [443], .calculate late {},
    .releaseAll late.key]

theorem web_standing : Standing empty course web.key [webRule] := by
  refine ⟨[], web, {}, course.tail, rfl, rfl, by decide +kernel, ?_, ?_, ?_, ?_, trivial⟩
  · exact fun h => absurd h (by decide)
  -- a refusal takes nothing from the one that is refused
  · intro _ p hp
    have hrefused : (Act.claim web.key [443]).answer
        ((Act.calculate api {}).next ((Act.calculate web {}).next empty)) =
          .error (.conflict ⟨443, api.key⟩) := by decide +kernel
    exact (congrArg (fun r : Reservations => r.holder? p)
      (next_of_error hrefused)).trans hp
  · exact fun h => absurd h (by decide)
  · exact fun h => absurd h (by decide)

theorem api_standing : Standing empty course api.key [apiRule] := by
  refine ⟨course.take 1, api, {}, course.drop 2, rfl, rfl, by decide +kernel, ?_,
    ?_, ?_, trivial⟩
  all_goals exact fun h => absurd h (by decide)

end Sample

open Reservations.Sample in
theorem acts_lawful_sample :
    web.key ≠ api.key ∧ Standing empty course web.key [webRule] ∧
    Standing empty course api.key [apiRule] ∧
    (Desired.externalPorts [webRule]).Disjoint (Desired.externalPorts [apiRule]) ∧
    ∃ c, Act.answer (.claim late.key [443, 80]) (empty.after course) =
      .error (.conflict c) ∧
      LowestTaken (empty.after course) late.key [443, 80] c := by
  have hne : web.key ≠ api.key := by decide
  obtain ⟨hlawful, hdisjoint⟩ := acts_lawful empty course
  have hlate := hlawful (.claim late.key [443, 80])
  have htaken : (empty.after course).holder? 80 = some web.key := by decide +kernel
  obtain ⟨c, hrefused⟩ :=
    (hlate.refused [443, 80] rfl).mpr ⟨80, by decide, web.key, htaken, by decide⟩
  exact ⟨hne, web_standing, api_standing, hdisjoint _ _ _ _ hne web_standing api_standing,
    c, hrefused, hlate.told [443, 80] rfl c hrefused⟩

end PortForwarding.Reservations
