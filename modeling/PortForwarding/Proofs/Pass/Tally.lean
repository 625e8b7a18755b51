import PortForwarding.Proofs.Pass.Failing
import PortForwarding.Proofs.Record.Failure

/-!
# How many failures are counted

The note of a failure says how many passes had failed before it since the last
success. The number is put together from two counts that know nothing of each
other: the limiter counts the passes that fail in the same way, and forgets them
as soon as a pass fails in another; the note that is already on the Service says
how many were counted up to it. A failure that the limiter holds back is counted
in the next note only if the same failure is reported again, and one whose
rollback failed leaves no note: `forgotten` says which failures are lost in this
way, and `retryCount_exact` that all others are counted.
-/

namespace PortForwarding.Tally

open Reconcile Script Stored

variable {settings : CleanupSettings} {defaults : RuleDefaults} {key : ServiceKey}
  {view : ServiceView} {failure : PassFailure}
  {p q : FailedPass settings defaults}
  {ps later : List (FailedPass settings defaults)} {s t : Stored × Limiter}
  {note : String}

/-! ## One failure after another -/

/-- Passes of one Service that fail, one after another, with nothing but the note
of a failure to say so. Between them the Service may be edited, as long as the
note stays. -/
inductive History (settings : CleanupSettings) (defaults : RuleDefaults)
    (key : ServiceKey) :
    List (FailedPass settings defaults) → Stored × Limiter → Prop
  /-- Nothing is known of a failure. -/
  | start {s : Stored × Limiter} (hkey : s.1.object.key = key)
      (hnote : s.1.object.annotation? Mark.errorContext = none)
      (hentry : s.2.entries.get? key.text = none) : History settings defaults key [] s
  | edited {ps : List (FailedPass settings defaults)} {s t : Stored × Limiter}
      (earlier : History settings defaults key ps s)
      (hkey : t.1.object.key = s.1.object.key)
      (hnote : t.1.object.annotation? Mark.errorContext =
        s.1.object.annotation? Mark.errorContext)
      (hlimiter : Meanwhile key.text s.2 t.2) : History settings defaults key ps t
  | failed {ps : List (FailedPass settings defaults)} (p : FailedPass settings defaults)
      (earlier : History settings defaults key ps p.first) :
      History settings defaults key (ps ++ [p]) p.last

/-! ## What is lost -/

/-- How many of the latest passes are waiting for the limiter to let one through. -/
def pending : List (FailedPass settings defaults) → Nat
  | [] => 0
  | p :: later => (!(p :: later).any FailedPass.surfaced).toNat + pending later

/-- A failed pass is lost if the first one from it on that the limiter lets
through is not noted, or if that is another pass with which the limiter begins to
count again. -/
def lost (p : FailedPass settings defaults)
    (later : List (FailedPass settings defaults)) : Bool :=
  match (p :: later).find? FailedPass.surfaced with
  | none => false
  | some q => q.broken || (!p.surfaced && q.anew)

def forgotten : List (FailedPass settings defaults) → Nat
  | [] => 0
  | p :: later => (lost p later).toNat + forgotten later

def FailedPass.drops (q : FailedPass settings defaults) (waiting : Nat) : Nat :=
  if q.surfaced then
    if q.broken then waiting + 1 else if q.anew then waiting else 0
  else 0

theorem pending_snoc (ps : List (FailedPass settings defaults))
    (q : FailedPass settings defaults) :
    pending (ps ++ [q]) = if q.surfaced then 0 else pending ps + 1 := by
  induction ps with
  | nil => cases hq : q.surfaced <;> simp [pending, hq]
  | cons p ps ih =>
      have hpending : pending (p :: ps) =
          (!(p :: ps).any FailedPass.surfaced).toNat + pending ps := rfl
      show (!(p :: (ps ++ [q])).any FailedPass.surfaced).toNat + pending (ps ++ [q]) = _
      rw [ih, hpending, ← List.cons_append, List.any_append]
      cases hq : q.surfaced with
      | true => simp [hq]
      | false =>
          simp only [List.any_cons, List.any_nil, hq, Bool.or_false,
            Bool.false_eq_true, if_false]
          exact (Nat.add_assoc ..).symm

theorem lost_snoc (p : FailedPass settings defaults)
    (later : List (FailedPass settings defaults))
    (q : FailedPass settings defaults) :
    lost p (later ++ [q]) =
      if (p :: later).any FailedPass.surfaced then lost p later
      else q.surfaced && (q.broken || q.anew) := by
  have happend : (p :: (later ++ [q])).find? FailedPass.surfaced =
      ((p :: later).find? FailedPass.surfaced).or ([q].find? FailedPass.surfaced) := by
    rw [← List.cons_append, List.find?_append]
  unfold lost
  rw [happend]
  cases hfind : (p :: later).find? FailedPass.surfaced with
  | some r =>
      have hany : (p :: later).any FailedPass.surfaced = true :=
        List.any_eq_true.mpr ⟨r, List.mem_of_find?_eq_some hfind, List.find?_some hfind⟩
      rw [if_pos hany]
      rfl
  | none =>
      have hnone := List.find?_eq_none.mp hfind
      have hany : (p :: later).any FailedPass.surfaced = false :=
        List.any_eq_false.mpr hnone
      have hp : p.surfaced = false := by simpa using hnone p List.mem_cons_self
      rw [if_neg (by rw [hany]; simp), Option.none_or, hp]
      cases hq : q.surfaced <;> simp [hq]

theorem lost_of_waiting (h : (p :: later).any FailedPass.surfaced = false) :
    lost p later = false := by
  unfold lost
  rw [List.find?_eq_none.mpr (List.any_eq_false.mp h)]

/-- **One more failure**: it settles what becomes of those that wait. -/
theorem forgotten_snoc (ps : List (FailedPass settings defaults))
    (q : FailedPass settings defaults) :
    forgotten (ps ++ [q]) = forgotten ps + q.drops (pending ps) := by
  induction ps with
  | nil =>
      show (lost q []).toNat + 0 = 0 + q.drops 0
      unfold lost FailedPass.drops
      cases hq : q.surfaced <;> cases hbroken : q.broken <;> simp [hq, hbroken]
  | cons p ps ih =>
      show (lost p (ps ++ [q])).toNat + forgotten (ps ++ [q]) =
        (lost p ps).toNat + forgotten ps + q.drops _
      have hpending : pending (p :: ps) =
          (!(p :: ps).any FailedPass.surfaced).toNat + pending ps := rfl
      rw [ih, lost_snoc, hpending]
      cases hany : (p :: ps).any FailedPass.surfaced with
      | true =>
          rw [if_pos rfl]
          simp only [Bool.not_true, Bool.toNat_false, Nat.zero_add]
          omega
      | false =>
          rw [lost_of_waiting hany, if_neg (by simp)]
          unfold FailedPass.drops
          cases q.surfaced <;> cases q.broken <;> cases q.anew <;> simp <;> omega

/-! ## The counts -/

def most : Nat := 4294967295

/-- What the limiter counts: the passes that wait are those that it has
not reported. -/
structure Counts (e : FailureEntry) (waiting : Nat) : Prop where
  some : 1 ≤ e.count
  count : e.count = e.surfacedCount + waiting

theorem again_counts (e : FailureEntry) (now : Nat) :
    ∀ after d, Limiter.again e now = (after, d) →
      d.count = e.count + 1 ∧ d.sinceSurfaced = e.count + 1 - e.surfacedCount ∧
        after.count = e.count + 1 ∧
        after.surfacedCount = if d.surface then e.count + 1 else e.surfacedCount := by
  intro after d hagain
  unfold Limiter.again at hagain
  -- how long there is to wait does not matter
  generalize Limiter.remaining e now = left at hagain
  dsimp only at hagain
  split at hagain
  all_goals
    obtain ⟨rfl, rfl⟩ := Prod.mk.inj hagain
    exact ⟨rfl, rfl, rfl, rfl⟩

/-- **The limiter counts one more.** Those that wait are told of with it, unless
it begins again. -/
theorem counts_step {entry : Option FailureEntry} {error : String} {now waiting : Nat}
    (hentry : ∀ e, entry = some e → Counts e waiting) :
    ∀ after d, Limiter.step entry error now = (after, d) →
      Counts after (if d.surface then 0 else waiting + 1) ∧
        d.sinceSurfaced = (if d.count = 1 then 1 else waiting + 1) ∧
        (d.surface = false → entry ≠ none) := by
  intro after d hstep
  have hfirst :
      (Limiter.firstEntry error now, (⟨true, none, 1, 1⟩ : Decision)) = (after, d) →
      Counts after (if d.surface then 0 else waiting + 1) ∧
        d.sinceSurfaced = (if d.count = 1 then 1 else waiting + 1) ∧
        (d.surface = false → entry ≠ none) := by
    intro heq
    obtain ⟨rfl, rfl⟩ := Prod.mk.inj heq
    exact ⟨⟨Nat.le_refl 1, rfl⟩, rfl, fun hheld => absurd hheld (by simp)⟩
  cases entry with
  | none => exact hfirst hstep
  | some e =>
      obtain ⟨hsome, hcount⟩ := hentry e rfl
      by_cases herror : e.error = error
      · rw [Limiter.step_same herror] at hstep
        obtain ⟨hnumber, hsince, hafter, hsurfaced⟩ := again_counts e now after d hstep
        refine ⟨⟨by omega, ?_⟩, ?_, fun _ => by simp⟩
        · rw [hafter, hsurfaced]
          split <;> omega
        · rw [hsince, if_neg (by omega)]
          omega
      · rw [Limiter.step_other herror] at hstep
        exact hfirst hstep

theorem toNat_ofNat_min (n : Nat) :
    (UInt32.ofNat (min n most)).toNat = min n most := by
  have hmin : min n most < 4294967296 := by
    unfold most
    omega
  exact UInt32.toNat_ofNat_of_lt hmin

theorem min_add_min (m n limit : Nat) :
    min (m + min n limit) limit = min (m + n) limit := by
  omega

/-- It makes no difference that the first note was cut off before it left out its
own failure. -/
theorem min_counts_on {count counted since limit : Nat} (hsince : 0 < since)
    (h : count = min counted limit ∨ count = min (counted + 1) limit - 1) :
    min (count + since) limit = min (counted + since) limit := by
  omega

theorem failures_of_pos {since : Nat} (hsince : 0 < since) :
    (UInt32.ofNat (min since 4294967295)).toNat = min since most ∧
      UInt32.ofNat (min since 4294967295) ≠ 0 ∧
      1 ≤ UInt32.ofNat (min since 4294967295) := by
  have hnumber : (UInt32.ofNat (min since 4294967295)).toNat = min since most :=
    toNat_ofNat_min since
  have hpos : 0 < min since most := by
    unfold most
    omega
  refine ⟨hnumber, fun hzero => ?_, ?_⟩
  · rw [hzero] at hnumber
    exact absurd (hnumber : 0 = _) (Nat.ne_of_lt hpos)
  · rw [UInt32.le_iff_toNat_le, hnumber]
    exact hpos

theorem retryCount_first {since : Nat} (hsince : 0 < since) (time : Timestamp)
    (hnone : (view.annotation? Mark.errorContext).bind FailureRecord.decode = none) :
    (failureRecord view failure since time).retryCount.toNat =
      min since most - 1 := by
  obtain ⟨hnumber, hne, hone⟩ := failures_of_pos hsince
  unfold failureRecord FailureRecord.next
  dsimp only
  rw [if_neg hne, hnone]
  dsimp only
  rw [UInt32.toNat_sub_of_le _ _ hone, hnumber]
  rfl

theorem retryCount_next {since : Nat} (hsince : 0 < since) (time : Timestamp)
    {r : FailureRecord}
    (hsome : (view.annotation? Mark.errorContext).bind FailureRecord.decode =
      some r) :
    (failureRecord view failure since time).retryCount.toNat =
      min (r.retryCount.toNat + since) most := by
  obtain ⟨hnumber, hne, -⟩ := failures_of_pos hsince
  unfold failureRecord FailureRecord.next
  dsimp only
  rw [if_neg hne, hsome]
  dsimp only
  have hsum : (addSaturating r.retryCount (UInt32.ofNat (min since 4294967295))).toNat =
      min (r.retryCount.toNat + min since most) most := by
    rw [← hnumber]
    exact toNat_ofNat_min _
  rw [hsum]
  exact min_add_min _ _ _

/-- **What is known after a number of failed passes.** -/
structure Tallied (key : ServiceKey) (ps : List (FailedPass settings defaults))
    (s : Stored × Limiter) : Prop where
  sameKey : s.1.object.key = key
  entry : ∀ e, s.2.entries.get? key.text = some e → Counts e (pending ps) ∧ ps ≠ []
  opened : ps ≠ [] → pending ps < ps.length
  unnoted : ps.any FailedPass.noted = false →
    s.1.object.annotation? Mark.errorContext = none ∧
      pending ps + forgotten ps = ps.length
  /-- The note tells of all that neither wait nor are lost. -/
  noted : ps.any FailedPass.noted = true → ∃ r counted,
    s.1.object.annotation? Mark.errorContext = some (FailureRecord.encode r) ∧
      r.timestamp.Readable ∧ counted + 1 + pending ps + forgotten ps = ps.length ∧
      (r.retryCount.toNat = min counted most ∨
        r.retryCount.toNat = min (counted + 1) most - 1)

theorem tallied_start (hkey : s.1.object.key = key)
    (hnote : s.1.object.annotation? Mark.errorContext = none)
    (hentry : s.2.entries.get? key.text = none) :
    Tallied key ([] : List (FailedPass settings defaults)) s := by
  refine ⟨hkey, fun e he => ?_, fun hne => absurd rfl hne, fun _ => ⟨hnote, rfl⟩,
    fun hany => absurd hany (by simp)⟩
  rw [hentry] at he
  exact absurd he (by simp)

theorem Tallied.edited (h : Tallied key ps s)
    (hkey : t.1.object.key = s.1.object.key)
    (hnote : t.1.object.annotation? Mark.errorContext =
      s.1.object.annotation? Mark.errorContext)
    (hlimiter : Meanwhile key.text s.2 t.2) : Tallied key ps t := by
  refine ⟨hkey.trans h.sameKey, fun e he => ?_, h.opened, ?_, ?_⟩
  · rcases hlimiter.entry with hsame | hnone
    · rw [hsame] at he
      exact h.entry e he
    · rw [hnone] at he
      exact absurd he (by simp)
  · rw [hnote]
    exact h.unnoted
  · rw [hnote]
    exact h.noted

/-- What a failed pass is told, and what becomes of the counts of the limiter. -/
theorem Tallied.decides (h : Tallied key ps p.first) :
    p.view.key = key ∧
      p.decision.sinceSurfaced = (if p.anew then 1 else pending ps + 1) ∧
      (p.surfaced = false → ps ≠ []) ∧
      ∀ e, p.last.2.entries.get? key.text = some e →
        Counts e (pending (ps ++ [p])) := by
  have hkey : p.view.key = key := (ServiceView.of?_ok p.seen).1.trans h.sameKey
  obtain ⟨entry, now, hentry, hdecision, hafter⟩ := p.outcome.observed
  rw [hkey] at hentry hafter
  have hcounts : ∀ e, entry = some e → Counts e (pending ps) ∧ ps ≠ [] := by
    rintro e rfl
    rcases hentry with hsame | hnone
    · exact h.entry e hsame.symm
    · exact absurd hnone (by simp)
  obtain ⟨hafterwards, hsince, hheld⟩ :=
    counts_step (fun e he => (hcounts e he).1)
      (Limiter.step entry p.failure.message now).1
      (Limiter.step entry p.failure.message now).2 rfl
  rw [← hdecision] at hafterwards hsince hheld
  refine ⟨hkey, ?_, fun hquiet => ?_, fun e he => ?_⟩
  · unfold FailedPass.anew
    rw [hsince]
    simp
  · obtain ⟨e, rfl⟩ := Option.ne_none_iff_exists'.mp (hheld hquiet)
    exact (hcounts e rfl).2
  · rw [hafter e he, pending_snoc]
    exact hafterwards

/-- Where a failure is noted, those that wait are told of or lost with it, and
none waits any more. -/
theorem settled_of_noted (hnoted : p.noted = true)
    (hsince : p.decision.sinceSurfaced = if p.anew then 1 else pending ps + 1) :
    pending (ps ++ [p]) = 0 ∧ 0 < p.decision.sinceSurfaced ∧
      p.decision.sinceSurfaced + forgotten (ps ++ [p]) =
        pending ps + 1 + forgotten ps := by
  obtain ⟨hsurfaced, hbroken⟩ : p.surfaced = true ∧ p.broken = false := by
    simpa [FailedPass.noted_eq] using hnoted
  have hdrops : p.drops (pending ps) = if p.anew then pending ps else 0 := by
    unfold FailedPass.drops
    simp [hsurfaced, hbroken]
  refine ⟨by rw [pending_snoc, if_pos hsurfaced], ?_⟩
  rw [forgotten_snoc, hdrops, hsince]
  cases p.anew with
  | true =>
      simp only [if_true]
      exact ⟨Nat.one_pos, by omega⟩
  | false =>
      simp only [Bool.false_eq_true, if_false]
      exact ⟨Nat.succ_pos _, by omega⟩

/-- Where it is not, those that wait are lost with it, or it waits with them. -/
theorem settled_of_unnoted (ps : List (FailedPass settings defaults))
    (hunnoted : p.noted = false) :
    pending (ps ++ [p]) + forgotten (ps ++ [p]) = pending ps + forgotten ps + 1 := by
  rw [pending_snoc, forgotten_snoc]
  unfold FailedPass.drops
  cases hsurfaced : p.surfaced with
  | false =>
      simp only [Bool.false_eq_true, if_false]
      omega
  | true =>
      have hbroken : p.broken = true := by
        simpa [FailedPass.noted_eq, hsurfaced] using hunnoted
      simp only [hbroken, if_true]
      omega

/-- **A note is read back as it was written.** -/
theorem FailedPass.decode_record (p : FailedPass settings defaults)
    {time : Timestamp} (htime : time.Reading) :
    FailureRecord.decode (p.record time).encode = some (p.record time) := by
  apply FailureRecord.decode_encode
  exact htime.readable

/-- **What a note counts.** -/
theorem Tallied.retryCount (h : Tallied key ps p.first) (hnoted : p.noted = true)
    (time : Timestamp) :
    (p.record time).retryCount.toNat =
      if ps.any FailedPass.noted then min (ps.length - forgotten (ps ++ [p])) most
      else min (ps.length + 1 - forgotten (ps ++ [p])) most - 1 := by
  obtain ⟨-, hsince, -, -⟩ := h.decides
  obtain ⟨-, hpos, hsettled⟩ := settled_of_noted hnoted hsince
  have hsame := ServiceView.annotation?_of_seen p.seen Mark.errorContext
  unfold FailedPass.record
  cases hany : ps.any FailedPass.noted with
  | false =>
      obtain ⟨hnone, hall⟩ := h.unnoted hany
      have hleft : ps.length + 1 - forgotten (ps ++ [p]) =
        p.decision.sinceSurfaced := by omega
      rw [if_neg (by simp), hleft]
      apply retryCount_first hpos
      rw [hsame, hnone]
      rfl
  | true =>
      obtain ⟨r, counted, hnote, hreadable, hall, hcount⟩ := h.noted hany
      have hleft : ps.length - forgotten (ps ++ [p]) =
          counted + p.decision.sinceSurfaced := by
        omega
      have hread :
          (p.view.annotation? Mark.errorContext).bind FailureRecord.decode =
          some r := by
        rw [hsame, hnote, Option.bind_some, FailureRecord.decode_encode hreadable]
      rw [if_pos rfl, hleft, retryCount_next hpos time hread]
      exact min_counts_on hpos hcount

/-- **One more failed pass.** -/
theorem Tallied.failed (h : Tallied key ps p.first) :
    Tallied key (ps ++ [p]) p.last := by
  obtain ⟨hkey, hsince, hquiet, hentry⟩ := h.decides
  have houtcome := p.outcome
  have hany : (ps ++ [p]).any FailedPass.noted =
      (ps.any FailedPass.noted || p.noted) := by
    simp
  have hlength : (ps ++ [p]).length = ps.length + 1 := by simp
  constructor
  case sameKey => exact houtcome.key.trans h.sameKey
  case entry => exact fun e he => ⟨hentry e he, by simp⟩
  case opened =>
    intro _
    rw [pending_snoc, hlength]
    cases hsurfaced : p.surfaced with
    | true => exact Nat.succ_pos _
    | false => exact Nat.succ_lt_succ (h.opened (hquiet hsurfaced))
  case unnoted =>
    intro hnone
    rw [hany, Bool.or_eq_false_iff] at hnone
    obtain ⟨hnote, hall⟩ := h.unnoted hnone.1
    refine ⟨(houtcome.unnoted hnone.2).2.trans hnote, ?_⟩
    rw [settled_of_unnoted ps hnone.2, hlength, hall]
  case noted =>
    intro hsome
    cases hnoted : p.noted with
    | false =>
        rw [hany, hnoted, Bool.or_false] at hsome
        obtain ⟨r, counted, hnote, hreadable, hall, hcount⟩ := h.noted hsome
        have hsettled := settled_of_unnoted ps hnoted
        exact ⟨r, counted, (houtcome.unnoted hnoted).2.trans hnote,
          hreadable, by omega, hcount⟩
    | true =>
        obtain ⟨time, htime, -, hnote⟩ := houtcome.noted hnoted
        obtain ⟨hpending, hpos, hsettled⟩ := settled_of_noted hnoted hsince
        have hcount := h.retryCount hnoted time
        cases hearlier : ps.any FailedPass.noted with
        | false =>
            rw [if_neg (by simp [hearlier])] at hcount
            obtain ⟨-, hall⟩ := h.unnoted hearlier
            have hmore : ps.length + 1 - forgotten (ps ++ [p]) =
                ps.length - forgotten (ps ++ [p]) + 1 := by omega
            rw [hmore] at hcount
            exact ⟨p.record time, _, hnote, htime.readable, by omega, Or.inr hcount⟩
        | true =>
            rw [if_pos hearlier] at hcount
            obtain ⟨r, counted, -, -, hall, -⟩ := h.noted hearlier
            exact ⟨p.record time, _, hnote, htime.readable, by omega, Or.inl hcount⟩

theorem History.tallied (h : History settings defaults key ps s) :
    Tallied key ps s := by
  induction h with
  | start hkey hnote hentry => exact tallied_start hkey hnote hentry
  | edited earlier hkey hnote hlimiter ih => exact ih.edited hkey hnote hlimiter
  | failed p earlier ih => exact ih.failed

/-- **A pass that succeeds begins a new history.** -/
theorem history_of_success {view : ServiceView} {action : Action}
    {log : List Exchange} (hview : ServiceView.of? s.1.object = .ok view)
    (hliving : view.deleting = false) (hqualifies : view.qualifies = true)
    (hfinalizer : view.hasFinalizer = true)
    (h : Leads (Recorded (Around view.key.text))
      (pass settings defaults s.1.object).run (s, []) (.ok action) (t, log)) :
    History settings defaults view.key [] t := by
  rw [pass_eq_managed hview hliving hqualifies hfinalizer] at h
  rcases managed_cases h with ⟨-, hconverge⟩ | ⟨failure, x, heq, -, -⟩
  · have hkey : t.1.object.key = s.1.object.key :=
      hconverge.preserves (P := fun z => z.1.1.object.key = s.1.object.key)
        (fun hu hmay => hmay.1.1.key.trans hu) rfl
    have hstored : Leads (Recorded May) (converge defaults view).run (s.1, [])
        (.ok ()) (t.1, log) :=
      hconverge.project (fun z => (z.1.1, z.2)) fun hmay => ⟨hmay.1.1, hmay.2⟩
    obtain ⟨plan, hcommitted⟩ := committed_of_leads hview hstored
    refine .start (hkey.trans (ServiceView.of?_ok hview).1.symm) hcommitted.forgotten ?_
    obtain ⟨desired, s₁, s₂, -, -, hlocked, hunlock⟩ := converge_succeeds hconverge
    obtain ⟨plan, y₁, y₂, y₃, y₄, y₅, -, -, -, hforget, hannounce, hannotate⟩ :=
      convergeLocked_ok hlocked
    have hafter : Way (Recorded (Around view.key.text)) Unobserving y₄ (t, log) :=
      ((hannounce.way (asks_announce plan fun _ => trivial)).trans
        (hannotate.way (Mark.asks_annotate _ trivial))).trans
          (hunlock.mono fun _ hr => Backstage.unobserving hr.backstage)
    exact (keeps_of_way hafter).none (entry_of_forget hforget)
  · exact absurd heq (by simp)

/-- A count comes out right if nothing was lost, and below the limit only then. -/
theorem exact_of_lost {n lost limit : Nat} (h : lost ≤ n) :
    (lost = 0 → min (n - lost) limit = min n limit) ∧
      (n ≤ limit → (min (n - lost) limit = n ↔ lost = 0)) := by
  refine ⟨?_, fun hn => ⟨?_, ?_⟩⟩ <;> omega

/-- So does the first count, before which nothing can have been waiting. -/
theorem exact_of_first {n lost limit : Nat} (h : lost ≤ n)
    (hfirst : lost = 0 → n = 0) :
    (lost = 0 → min (n + 1 - lost) limit - 1 = min n limit) ∧
      (n ≤ limit → (min (n + 1 - lost) limit - 1 = n ↔ lost = 0)) := by
  refine ⟨?_, fun hn => ⟨?_, ?_⟩⟩ <;> omega

/-- **Every note counts all failures before it but those that are lost**, and so
the failures before it exactly if none is: the number of them is `ps.length`. -/
theorem retryCount_exact (h : History settings defaults key ps p.first)
    (hnote : p.Notes note) :
    ∃ r, FailureRecord.decode note = some r ∧
      r.retryCount.toNat =
        (if ps.any FailedPass.noted then min (ps.length - forgotten (ps ++ [p])) most
          else min (ps.length + 1 - forgotten (ps ++ [p])) most - 1) ∧
      (forgotten (ps ++ [p]) = 0 → r.retryCount.toNat = min ps.length most) ∧
      (ps.length ≤ most → (r.retryCount.toNat = ps.length ↔
        forgotten (ps ++ [p]) = 0)) := by
  have htallied := h.tallied
  have houtcome := p.outcome
  have hnoted : p.noted = true := by
    by_contra hunnoted
    exact (houtcome.unnoted (by simpa using hunnoted)).1 note hnote
  obtain ⟨time, htime, hwritten, -⟩ := houtcome.noted hnoted
  obtain ⟨-, hsince, -, -⟩ := htallied.decides
  obtain ⟨-, hpos, hsettled⟩ := settled_of_noted hnoted hsince
  have hcount := htallied.retryCount hnoted time
  refine ⟨p.record time, ?_, hcount, ?_⟩
  · rw [hwritten note hnote]
    exact p.decode_record htime
  rw [hcount]
  cases hany : ps.any FailedPass.noted with
  | true =>
      obtain ⟨r, counted, -, -, hall, -⟩ := htallied.noted hany
      rw [if_pos rfl]
      exact exact_of_lost (by omega)
  | false =>
      obtain ⟨-, hall⟩ := htallied.unnoted hany
      rw [if_neg (by simp)]
      refine exact_of_first (by omega) fun hnone => ?_
      -- were there passes before, the first of them would have been let through,
      -- and lost
      have hwaiting : pending ps = ps.length := by
        rw [forgotten_snoc] at hnone
        omega
      by_contra hsome
      have hopened := htallied.opened fun hnil => hsome (by rw [hnil]; rfl)
      omega

end PortForwarding.Tally

/-! ## A failure that comes twice, and then another -/

namespace PortForwarding.Sample

open Reconcile Script Tally

variable {v : ServiceView} {desired : List DesiredRule} {e : RouterError}
  {s : Stored × Limiter} {log : List Exchange} {d : Decision} {l : Limiter}

def listless (v : ServiceView) (desired : List DesiredRule) (e : RouterError) :
    List Exchange :=
  [⟨.memory (.claim v.key (Desired.externalPorts desired)), .ok ()⟩, ⟨.lock v.key, ()⟩,
    ⟨.router .list, .error e⟩, ⟨.unlock v.key, ()⟩]

theorem leads_listless (hrules : Desired.rulesFor v {} = .ok desired) :
    Leads (Recorded (Around v.key.text)) (converge {} v).run (s, [])
      (.error (.router e)) (s, listless v desired e) := by
  let upTo (n : Nat) : (Stored × Limiter) × List Exchange :=
    (s, (listless v desired e).take n)
  have hclaim : Leads (Recorded (Around v.key.text)) (claimDesired v {}).run
      (upTo 0) (.ok desired) (upTo 1) := by
    unfold claimDesired
    simp only [hrules]
    exact leads_ask.mpr ⟨.ok (), upTo 1, ⟨⟨rfl, s.2, .idle, rfl⟩, rfl⟩, .done _ _⟩
  have hlock : Recorded (Around v.key.text) (upTo 1) (.lock v.key) () (upTo 2) :=
    ⟨⟨rfl, s.2, .idle, rfl⟩, rfl⟩
  have hlist :
      Recorded (Around v.key.text) (upTo 2) (.router .list) (.error e) (upTo 3) :=
    ⟨⟨rfl, s.2, .idle, rfl⟩, rfl⟩
  have hunlock : Recorded (Around v.key.text) (upTo 3) (.unlock v.key) () (upTo 4) :=
    ⟨⟨rfl, s.2, .idle, rfl⟩, rfl⟩
  have hplan : Leads (Recorded (Around v.key.text))
      (planAgainstRouter v.key desired).run (upTo 2) (.error e) (upTo 3) :=
    leads_tryBind.mpr (Or.inr ⟨e, leads_listRules.mpr hlist, rfl⟩)
  have hlocked :
      Leads (Recorded (Around v.key.text)) (convergeLocked v desired).run (upTo 2)
        (.error (.router e)) (upTo 3) :=
    leads_tryBind.mpr (Or.inr ⟨.router e, leads_adapt.mpr ⟨.error e, hplan, rfl⟩, rfl⟩)
  refine leads_tryBind.mpr (Or.inl ⟨desired, upTo 1, leads_adapt_ok.mpr hclaim, ?_⟩)
  refine leads_bind.mpr ⟨(), upTo 2, leads_request.mpr hlock, ?_⟩
  refine leads_bind.mpr ⟨.error (.router e), upTo 3, hlocked, ?_⟩
  exact leads_bind.mpr ⟨(), upTo 4, leads_request.mpr hunlock, .done _ _⟩

def observation (e : RouterError) (l : Limiter) : Decision × Limiter :=
  l.observe key.text (PassFailure.router e).message 0

theorem recorded_observation (hv : v.key = key) (h : observation e s.2 = (d, l)) :
    Recorded (Around v.key.text) (s, log)
      (.memory (.observe v.key.text (PassFailure.router e).message)) d
      ((s.1, l),
        log ++ [⟨.memory (.observe v.key.text (PassFailure.router e).message), d⟩]) :=
  ⟨⟨rfl, s.2, .idle, 0, by rw [hv]; exact h.symm⟩, rfl⟩

theorem leads_held (hv : v.key = key) (h : observation e s.2 = (d, l))
    (hheld : d.surface = false) :
    Leads (Recorded (Around v.key.text)) (recordFailure v (.router e)) (s, log) ()
      ((s.1, l),
        log ++
          [⟨.memory (.observe v.key.text (PassFailure.router e).message), d⟩]) := by
  refine leads_bind.mpr ⟨d, _, leads_memory.mpr (recorded_observation hv h), ?_⟩
  simp only [hheld]
  exact .done _ _

def noteOf (v : ServiceView) (e : RouterError) (failures : Nat) : String :=
  (failureRecord v (.router e) failures epoch).encode

def complaint (v : ServiceView) (e : RouterError) (d : Decision) : List Exchange :=
  [⟨.memory (.observe v.key.text (PassFailure.router e).message), d⟩,
    ⟨.publish v.reference (failureNote (.router e)), ()⟩, ⟨.now, epoch⟩,
    ⟨.store (.patch v.key (.annotations
      [(Mark.errorContext, some (noteOf v e d.sinceSurfaced))])), .ok ()⟩]

def marked (s : Stored) (note : String) : Stored :=
  { s with
    object := s.object.patch (.annotations [(Mark.errorContext, some note)])
    clock := epoch.instant }

theorem leads_reported (hv : v.key = key) (h : observation e s.2 = (d, l))
    (hsurfaced : d.surface = true) (hkey : v.key = s.1.object.key)
    (hgone : s.1.gone = false) :
    Leads (Recorded (Around v.key.text)) (recordFailure v (.router e)) (s, log) ()
      ((marked s.1 (noteOf v e d.sinceSurfaced), l), log ++ complaint v e d) := by
  let dated : Stored := { s.1 with clock := epoch.instant }
  have hpublish : Recorded (Around v.key.text) ((s.1, l), log ++ (complaint v e d).take 1)
      (.publish v.reference (failureNote (.router e))) ()
      ((s.1, l), log ++ (complaint v e d).take 2) :=
    ⟨⟨rfl, l, .idle, rfl⟩, by simp [complaint]⟩
  have hnow : Recorded (Around v.key.text) ((s.1, l), log ++ (complaint v e d).take 2)
      .now epoch ((dated, l), log ++ (complaint v e d).take 3) :=
    ⟨⟨⟨epoch_reading, rfl⟩, l, .idle, rfl⟩, by simp [complaint]⟩
  have hmay : Stored.May dated (.store (.patch v.key (.annotations
      [(Mark.errorContext, some (noteOf v e d.sinceSurfaced))]))) (.ok ())
      (marked s.1 (noteOf v e d.sinceSurfaced)) := by
    show if v.key = s.1.object.key then _ else _
    rw [if_pos hkey]
    exact ⟨hgone, _, patched_patch _ _, rfl⟩
  have hpatch : Recorded (Around v.key.text) ((dated, l), log ++ (complaint v e d).take 3)
      (.store (.patch v.key (.annotations
        [(Mark.errorContext, some (noteOf v e d.sinceSurfaced))]))) (.ok ())
      ((marked s.1 (noteOf v e d.sinceSurfaced), l), log ++ complaint v e d) :=
    ⟨⟨hmay, l, .idle, rfl⟩, by simp [complaint]⟩
  refine leads_bind.mpr ⟨d, _, leads_memory.mpr (recorded_observation hv h), ?_⟩
  have hclean : (PassFailure.router e).rollbackFailed = false := rfl
  simp only [hsurfaced, hclean]
  refine leads_bind.mpr ⟨(), _, leads_request.mpr hpublish, ?_⟩
  refine leads_bind.mpr ⟨epoch, _, leads_request.mpr hnow, ?_⟩
  exact leads_bind.mpr ⟨.ok (), _, leads_request.mpr hpatch, .done _ _⟩

theorem leads_vexed {t : Stored × Limiter}
    (hview : ServiceView.of? s.1.object = .ok v) (hliving : v.deleting = false)
    (hqualifies : v.qualifies = true) (hheld : v.hasFinalizer = true)
    (hrules : Desired.rulesFor v {} = .ok desired)
    (hrecord : Leads (Recorded (Around v.key.text)) (recordFailure v (.router e))
      (s, listless v desired e) () (t, log)) :
    Leads (Recorded (Around v.key.text)) (pass {} {} s.1.object).run (s, [])
      (.error (.router e)) (t, log) := by
  rw [pass_eq_managed hview hliving hqualifies hheld]
  refine leads_bind.mpr ⟨.error (.router e), _, leads_listless hrules, ?_⟩
  exact leads_bind.mpr ⟨(), _, hrecord, .done _ _⟩

def unmarked : Stored :=
  { object := service, gone := false, failed := false, clock := epoch.instant }

def down : RouterError := .unreachable "down"

def unknown : RouterError := .api 401 "who"

def after (failures : List RouterError) : Limiter :=
  failures.foldl (fun l e => (observation e l).2) .empty

theorem observed_first :
    observation down .empty = (⟨true, none, 1, 1⟩, after [down]) := by
  decide +kernel

theorem observed_again :
    observation down (after [down]) =
      (⟨false, some 60000000000, 2, 1⟩, after [down, down]) := by
  decide +kernel

theorem observed_otherwise :
    observation unknown (after [down, down]) =
      (⟨true, none, 1, 1⟩, after [down, down, unknown]) := by
  decide +kernel

theorem annotation?_marked (note : String) :
    (viewOf (marked unmarked note)).annotation? Mark.errorContext = some note :=
  rfl

def firstPass : FailedPass {} {} :=
  { view := viewOf unmarked
    first := (unmarked, .empty)
    last := (marked unmarked (noteOf (viewOf unmarked) down 1), after [down])
    failure := .router down
    decision := ⟨true, none, 1, 1⟩
    log := listless (viewOf unmarked) [wish "http" 80 80] down ++
      complaint (viewOf unmarked) down ⟨true, none, 1, 1⟩
    seen := rfl
    living := rfl
    qualifies := rfl
    held := rfl
    intact := rfl
    leads := leads_vexed rfl rfl rfl rfl rfl
      (leads_reported (d := ⟨true, none, 1, 1⟩) rfl observed_first rfl rfl rfl)
    decided := rfl }

section

variable (note : String)

def secondPass : FailedPass {} {} :=
  { view := viewOf (marked unmarked note)
    first := (marked unmarked note, after [down])
    last := (marked unmarked note, after [down, down])
    failure := .router down
    decision := ⟨false, some 60000000000, 2, 1⟩
    log := listless (viewOf (marked unmarked note)) [wish "http" 80 80] down ++
      [⟨.memory (.observe key.text (PassFailure.router down).message),
        ⟨false, some 60000000000, 2, 1⟩⟩]
    seen := rfl
    living := rfl
    qualifies := rfl
    held := rfl
    intact := rfl
    leads := leads_vexed rfl rfl rfl rfl rfl (leads_held rfl observed_again rfl)
    decided := rfl }

def thirdPass : FailedPass {} {} :=
  { view := viewOf (marked unmarked note)
    first := (marked unmarked note, after [down, down])
    last := (marked (marked unmarked note)
      (noteOf (viewOf (marked unmarked note)) unknown 1),
      after [down, down, unknown])
    failure := .router unknown
    decision := ⟨true, none, 1, 1⟩
    log := listless (viewOf (marked unmarked note)) [wish "http" 80 80] unknown ++
      complaint (viewOf (marked unmarked note)) unknown ⟨true, none, 1, 1⟩
    seen := rfl
    living := rfl
    qualifies := rfl
    held := rfl
    intact := rfl
    leads := leads_vexed rfl rfl rfl rfl rfl
      (leads_reported (d := ⟨true, none, 1, 1⟩) rfl observed_otherwise rfl rfl rfl)
    decided := rfl }

end

def firstNote : String :=
  noteOf (viewOf unmarked) down 1

def earlierPasses : List (FailedPass {} {}) :=
  [firstPass, secondPass firstNote]

theorem earlierPasses_history :
    History {} {} key earlierPasses (thirdPass firstNote).first :=
  .failed (secondPass firstNote) (.failed firstPass (.start rfl rfl rfl))

theorem thirdPass_notes (note : String) :
    (thirdPass note).Notes ((thirdPass note).record epoch).encode :=
  ⟨[(Mark.errorContext, some ((thirdPass note).record epoch).encode)],
    List.mem_singleton.mpr rfl, rfl⟩

end PortForwarding.Sample

namespace PortForwarding.Tally

open Sample

theorem retryCount_exact_sample :
    ∃ r, FailureRecord.decode ((thirdPass firstNote).record epoch).encode = some r ∧
      r.retryCount.toNat = 1 ∧
      forgotten (earlierPasses ++ [thirdPass firstNote]) = 1 := by
  obtain ⟨r, hread, hcount, -⟩ :=
    retryCount_exact earlierPasses_history (thirdPass_notes firstNote)
  exact ⟨r, hread, hcount, rfl⟩

/-- **A failure is not counted**: that which was held back when another one came. -/
theorem retryCount_short :
    ∃ (key : ServiceKey) (ps : List (FailedPass {} {})) (p : FailedPass {} {})
      (note : String) (r : FailureRecord), History {} {} key ps p.first ∧ p.Notes note ∧
      FailureRecord.decode note = some r ∧ ps.length = 2 ∧
      r.retryCount.toNat = 1 := by
  have hfirst : (firstPass.record epoch).retryCount.toNat = min 1 most - 1 :=
    retryCount_first Nat.one_pos epoch rfl
  have hread : FailureRecord.decode firstNote = some (firstPass.record epoch) :=
    firstPass.decode_record epoch_reading
  have hthird : ((thirdPass firstNote).record epoch).retryCount.toNat =
      min ((firstPass.record epoch).retryCount.toNat + 1) most := by
    apply retryCount_next Nat.one_pos epoch
    show ((viewOf (marked unmarked firstNote)).annotation? Mark.errorContext).bind
      FailureRecord.decode = some (firstPass.record epoch)
    rw [annotation?_marked, Option.bind_some, hread]
  have hnote := (thirdPass firstNote).decode_record epoch_reading
  refine ⟨key, earlierPasses, thirdPass firstNote, _, _, earlierPasses_history,
    thirdPass_notes firstNote, hnote, rfl, ?_⟩
  rw [hthird, hfirst]
  rfl

end PortForwarding.Tally
