import PortForwarding.Proofs.Record.Failure

/-!
# Records outlive the pass, and the version, that wrote them

A record that is read from a Service can be written there again
(`records_read_back`), whoever wrote it before and however it was laid out. And it
need not have been written by the version that reads it: members that are missing
stand for the defaults of their fields, members that are not known are skipped,
and their order does not count (`edited_records_read_back`).
-/

namespace PortForwarding

open Json

/-! ## Times that are written -/

namespace Timestamp

/-- A time in the years that have four digits, and not within a leap second. -/
def Plain (t : Timestamp) : Prop :=
  0 ≤ t.date.year ∧ t.date.year ≤ 9999 ∧ t.nano < nanosPerSecond

theorem Plain.readable {t : Timestamp} (h : t.Plain) : t.Readable := by
  obtain ⟨hlow, hhigh, hnano⟩ := h
  refine ⟨?_, Or.inl hnano⟩
  unfold yearInRange
  rw [Bool.and_eq_true, decide_eq_true_iff, decide_eq_true_iff]
  omega

/-- Whatever is written of a time within range, there is a time that is read
from it: a leap second that is not the last of its minute looks like the second
after it. -/
theorem exists_readable {t : Timestamp} (h : yearInRange t.date.year = true) :
    ∃ t' : Timestamp, t'.Readable ∧ t'.text = t.text := by
  by_cases hread : t.nano < nanosPerSecond ∨ t.second % 60 = 59
  · exact ⟨t, ⟨h, hread⟩, rfl⟩
  · have hsecond := t.second_lt
    have hnano := t.nano_lt
    unfold secondsPerDay at hsecond
    unfold nanosPerSecond at hread hnano
    have hafter : t.second + 1 < secondsPerDay := by unfold secondsPerDay; omega
    have hrest : t.nano - nanosPerSecond < nanosPerSecond := by
      unfold nanosPerSecond; omega
    refine ⟨⟨t.date, t.second + 1, t.nano - nanosPerSecond, hafter, by omega⟩,
      ⟨h, Or.inl hrest⟩, ?_⟩
    have hhour : (t.second + 1) / 3600 = t.second / 3600 := by omega
    have hminute : (t.second + 1) / 60 % 60 = t.second / 60 % 60 := by omega
    have hlast : (t.second + 1) % 60 + (t.nano - nanosPerSecond) / nanosPerSecond =
        t.second % 60 + t.nano / nanosPerSecond := by unfold nanosPerSecond; omega
    have hfraction : (t.nano - nanosPerSecond) % nanosPerSecond =
        t.nano % nanosPerSecond := by
      unfold nanosPerSecond; omega
    unfold text
    simp only [hhour, hminute, hlast, hfraction]

end Timestamp

/-! ## What is written is read -/

theorem FailureRecord.readable_of_ofJson {j : Json} {r : FailureRecord}
    (h : ofJson j = some r) : r.timestamp.Readable := by
  unfold ofJson at h
  split at h
  · simp only [Option.bind_eq_bind, Option.bind_eq_some_iff] at h
    obtain ⟨code, -, message, -, time, htime, retryCount, -, status, -,
      operations, -, h⟩ := h
    obtain rfl := Option.some.inj h
    unfold required at htime
    split at htime
    · obtain ⟨text, -, hparse⟩ := Option.bind_eq_some_iff.mp htime
      exact Timestamp.readable_of_parse hparse
    · exact absurd htime (by simp)
  · exact absurd h (by simp)

theorem FailureRecord.readable_of_decode {text : String} {r : FailureRecord}
    (h : decode text = some r) : r.timestamp.Readable := by
  obtain ⟨j, -, hjson⟩ := Option.bind_eq_some_iff.mp h
  exact readable_of_ofJson hjson

/-- **Records are read as they were written**, the record of a cleanup in the
current version. So whatever text a record was read from, it is the same after it
has been written and read again. -/
theorem records_read_back :
    (∀ r : ChangeRecord, ChangeRecord.decode r.encode = some r) ∧
      (∀ r : FailureRecord, r.timestamp.Plain →
        FailureRecord.decode r.encode = some r) ∧
      (∀ r : CleanupRecord, (∀ t ∈ r.lastAttempt, t.Plain) →
        CleanupRecord.decode (some r.encode) = { r with version := 1 }) ∧
      (∀ text r, ChangeRecord.decode text = some r →
        ChangeRecord.decode r.encode = some r) ∧
      (∀ text r, FailureRecord.decode text = some r →
        FailureRecord.decode r.encode = some r) ∧
      ∀ text, CleanupRecord.decode (some (CleanupRecord.decode text).encode) =
        { CleanupRecord.decode text with version := 1 } := by
  refine ⟨ChangeRecord.decode_encode, ?_, ?_, ?_, ?_, ?_⟩
  · intro r hplain
    exact FailureRecord.decode_encode hplain.readable
  · intro r hplain
    exact CleanupRecord.decode_encode fun t ht => (hplain t ht).readable
  · intro text r hread
    exact r.decode_encode
  · intro text r hread
    exact FailureRecord.decode_encode (FailureRecord.readable_of_decode hread)
  · intro text
    exact CleanupRecord.decode_encode (CleanupRecord.dated_decode text)

/-- The records of a Service whose rule the router has refused, and whose cleanup
has failed. -/
theorem records_read_back_refused :
    let midnight : Timestamp := .midnight .epoch
    let noted : ChangeRecord :=
      { ChangeRecord.empty with
        newIp := some "192.168.1.10"
        portChanges := [⟨.added, "http", none, some 8080, none, some "TCP"⟩]
        observedPorts := [⟨"http", 80, "TCP"⟩] }
    let failed : FailureRecord :=
      { code := .routerOperation, message := "no \"free\" slot\n", timestamp := midnight
        retryCount := 2, status := .retrying
        failedOperations :=
          [⟨.create, "default/web:http", 8080, 80, "tcp", "192.168.1.10",
          .portNotYetExists, none, []⟩] }
    let begun : CleanupRecord := ⟨7, 3, .inProgress, some "timeout", some midnight⟩
    ChangeRecord.decode noted.encode = some noted ∧
      FailureRecord.decode failed.encode = some failed ∧
      CleanupRecord.decode (some begun.encode) = { begun with version := 1 } := by
  intro midnight noted failed begun
  obtain ⟨hchange, hfailure, hcleanup, hchanges, hfailures, -⟩ := records_read_back
  have hplain : midnight.Plain := ⟨by decide, by decide, by decide⟩
  refine ⟨hchanges noted.encode noted (hchange noted),
    hfailures failed.encode failed ?_, ?_⟩
  · exact hfailure failed hplain
  · refine hcleanup begun fun t ht => ?_
    obtain rfl := Option.some.inj ht
    exact hplain

/-! ## Texts of other versions -/

namespace Json

variable {name : String} {names : List String} {gone : String → Bool}
  {members unknown edited : List (String × Json)} {fields : List (Option Json)}

/-- A text holds the object of another one, but with other members: some are
gone, others are new, and they stand in any order. What is new has no name that
is known. -/
def Edited (known : List String) (gone : String → Bool) (original text : String) :
    Prop :=
  ∃ members unknown edited, Json.parse original = some (.obj members) ∧
    Json.parse text = some (.obj edited) ∧
    edited.Perm (members.filter (fun m => !gone m.1) ++ unknown) ∧
      ∀ m ∈ unknown, m.1 ∉ known

theorem edited_text (members unknown : List (String × Json)) (gone : String → Bool)
    (hperm : edited.Perm (members.filter (fun m => !gone m.1) ++ unknown))
    (hunknown : ∀ m ∈ unknown, m.1 ∉ names) :
    Edited names gone (Json.obj members).text (Json.obj edited).text :=
  ⟨members, unknown, edited, parse_text _, parse_text _, hperm, hunknown⟩

theorem valuesOf_filter (gone : String → Bool) (members : List (String × Json)) :
    valuesOf name (members.filter fun m => !gone m.1) =
      if gone name then [] else valuesOf name members := by
  unfold valuesOf
  rw [List.filter_filter]
  cases hgone : gone name with
  | true =>
      rw [if_pos rfl, List.map_eq_nil_iff, List.filter_eq_nil_iff]
      rintro m hm heq
      obtain ⟨hname, hkept⟩ := Bool.and_eq_true_iff.mp heq
      rw [eq_of_beq hname, hgone] at hkept
      exact absurd hkept (by decide)
  | false =>
      rw [if_neg (by decide)]
      congr 1
      apply List.filter_congr
      intro m hm
      by_cases hname : m.1 = name
      · simp [hname, hgone]
      · simp [hname]

theorem valuesOf_unknown (h : ∀ m ∈ unknown, m.1 ≠ name) :
    valuesOf name unknown = [] := by
  unfold valuesOf
  rw [List.map_eq_nil_iff, List.filter_eq_nil_iff]
  intro m hm
  simpa using h m hm

/-- **An edited object has the same fields**, without those that are gone. -/
theorem rowOfMembers_edited
    (hperm : edited.Perm (members.filter (fun m => !gone m.1) ++ unknown))
    (hunknown : ∀ m ∈ unknown, m.1 ∉ names)
    (h : rowOfMembers members names = some fields) :
    rowOfMembers edited names =
      some (names.zipWith (fun name field => if gone name then none else field)
        fields) := by
  rw [rowOfMembers_perm hperm]
  clear hperm
  induction names generalizing fields with
  | nil =>
      obtain rfl := Option.some.inj h
      rfl
  | cons name names ih =>
      obtain ⟨value, rest, rfl, hvalue, hrest⟩ := rowOfMembers_eq_some h
      have hnew : valuesOf name unknown = [] :=
        valuesOf_unknown fun m hm heq => hunknown m hm (heq ▸ List.mem_cons_self)
      have hfield : valuesOf name (members.filter (fun m => !gone m.1) ++ unknown) =
          (if gone name then none else value).toList := by
        rw [valuesOf_append, hnew, List.append_nil, valuesOf_filter, hvalue]
        split <;> rfl
      rw [rowOfMembers_cons _ hfield,
        ih (fun m hm hname => hunknown m hm (List.mem_cons_of_mem _ hname)) hrest]
      rfl

/-! ## Fields that are gone -/

variable {α : Type} {read : Json → Option α} {field : Option Json}
  {value initial : α} {b : Bool}

theorem defaulted_gone (h : defaulted initial read field = some value) :
    defaulted initial read (if b then none else field) =
      some (if b then initial else value) := by
  cases b with
  | true => rfl
  | false => exact h

theorem optional_gone {value : Option α} (h : optional read field = some value) :
    optional read (if b then none else field) = some (if b then none else value) := by
  cases b with
  | true => rfl
  | false => exact h

end Json

namespace ChangeRecord

def known : List String :=
  ["ip_changed", "old_ip", "new_ip", "annotation_changed", "old_annotation",
    "new_annotation", "spec_changed", "port_changes", "service_key",
    "observed_ports"]

/-- The record with the defaults of some fields, as in a record that is empty. -/
def without (r : ChangeRecord) (gone : String → Bool) : ChangeRecord where
  ipChanged := if gone "ip_changed" then empty.ipChanged else r.ipChanged
  oldIp := if gone "old_ip" then empty.oldIp else r.oldIp
  newIp := if gone "new_ip" then empty.newIp else r.newIp
  mappingChanged :=
    if gone "annotation_changed" then empty.mappingChanged else r.mappingChanged
  oldMapping := if gone "old_annotation" then empty.oldMapping else r.oldMapping
  newMapping := if gone "new_annotation" then empty.newMapping else r.newMapping
  specChanged := if gone "spec_changed" then empty.specChanged else r.specChanged
  portChanges := if gone "port_changes" then empty.portChanges else r.portChanges
  serviceKey := if gone "service_key" then empty.serviceKey else r.serviceKey
  observedPorts := if gone "observed_ports" then empty.observedPorts else r.observedPorts

theorem ofJson_edited {r : ChangeRecord} {gone : String → Bool}
    {members unknown edited : List (String × Json)}
    (h : ofJson (.obj members) = some r)
    (hperm : edited.Perm (members.filter (fun m => !gone m.1) ++ unknown))
    (hunknown : ∀ m ∈ unknown, m.1 ∉ known) :
    ofJson (.obj edited) = some (r.without gone) := by
  unfold ofJson at h
  split at h
  · next hrow =>
      have hedited : (Json.obj edited).row known = _ :=
        rowOfMembers_edited hperm hunknown hrow
      simp only [Option.bind_eq_bind, Option.bind_eq_some_iff] at h
      obtain ⟨ipChanged, hipChanged, oldIp, holdIp, newIp, hnewIp, mappingChanged,
        hmappingChanged, oldMapping, holdMapping, newMapping, hnewMapping,
        specChanged, hspecChanged, portChanges, hportChanges, serviceKey,
        hserviceKey, observedPorts, hobservedPorts, h⟩ := h
      obtain rfl := Option.some.inj h
      unfold ofJson
      unfold known at hedited
      rw [hedited]
      simp only [List.zipWith_cons_cons, List.zipWith_nil_left,
        defaulted_gone hipChanged, optional_gone holdIp, optional_gone hnewIp,
        defaulted_gone hmappingChanged, optional_gone holdMapping,
        optional_gone hnewMapping, defaulted_gone hspecChanged,
        defaulted_gone hportChanges, defaulted_gone hserviceKey,
        defaulted_gone hobservedPorts, Option.bind_eq_bind, Option.bind_some]
      rfl
  · exact absurd h (by simp)

theorem decode_edited {r : ChangeRecord} {gone : String → Bool}
    {original text : String} (h : decode original = some r)
    (hedited : Edited known gone original text) :
    decode text = some (r.without gone) := by
  obtain ⟨members, unknown, edited, horiginal, htext, hperm, hunknown⟩ := hedited
  unfold decode at h ⊢
  rw [horiginal] at h
  rw [htext]
  exact ofJson_edited h hperm hunknown

end ChangeRecord

namespace CleanupRecord

def known : List String :=
  ["version", "attempts", "status", "last_error", "last_attempt"]

/-- The record with the defaults of some fields, as in a record of a cleanup that
has not begun. Its version has no default. -/
def without (r : CleanupRecord) (gone : String → Bool) : CleanupRecord where
  version := r.version
  attempts := if gone "attempts" then fresh.attempts else r.attempts
  status := if gone "status" then fresh.status else r.status
  lastError := if gone "last_error" then fresh.lastError else r.lastError
  lastAttempt := if gone "last_attempt" then fresh.lastAttempt else r.lastAttempt

theorem ofJson_edited {r : CleanupRecord} {gone : String → Bool}
    {members unknown edited : List (String × Json)}
    (h : ofJson (.obj members) = some r) (hversion : gone "version" = false)
    (hperm : edited.Perm (members.filter (fun m => !gone m.1) ++ unknown))
    (hunknown : ∀ m ∈ unknown, m.1 ∉ known) :
    ofJson (.obj edited) = some (r.without gone) := by
  unfold ofJson at h
  split at h
  · next hrow =>
      have hedited : (Json.obj edited).row known = _ :=
        rowOfMembers_edited hperm hunknown hrow
      simp only [Option.bind_eq_bind, Option.bind_eq_some_iff] at h
      obtain ⟨version, hread, attempts, hattempts, status, hstatus, lastError, hlastError,
        lastAttempt, hlastAttempt, h⟩ := h
      obtain rfl := Option.some.inj h
      unfold ofJson
      unfold known at hedited
      rw [hedited]
      simp only [List.zipWith_cons_cons, List.zipWith_nil_left, hversion, hread,
        defaulted_gone hattempts, defaulted_gone hstatus,
        optional_gone hlastError, optional_gone hlastAttempt, Option.bind_eq_bind,
        Option.bind_some, Bool.false_eq_true, if_false]
      rfl
  · exact absurd h (by simp)

theorem decode_edited {r : CleanupRecord} {gone : String → Bool} {text : String}
    (h : r.Dated) (hversion : gone "version" = false)
    (hedited : Edited known gone r.encode text) :
    decode (some text) = { r.without gone with version := currentVersion } := by
  obtain ⟨members, unknown, edited, horiginal, htext, hperm, hunknown⟩ := hedited
  have hdated : Dated { r with version := currentVersion } := h
  unfold encode at horiginal
  rw [parse_text] at horiginal
  have hread := ofJson_toJson hdated
  rw [Option.some.inj horiginal] at hread
  unfold decode
  simp only [Option.bind_some, htext, ofJson_edited hread hversion hperm hunknown]
  rfl

/-- What is written of a record is also written of one with a time that a clock
has shown. -/
theorem exists_dated {r : CleanupRecord}
    (h : ∀ t ∈ r.lastAttempt, Timestamp.yearInRange t.date.year = true) :
    ∃ time, Dated { r with lastAttempt := time } ∧
      encode { r with lastAttempt := time } = r.encode := by
  obtain ⟨version, attempts, status, lastError, lastAttempt⟩ := r
  cases lastAttempt with
  | none => exact ⟨none, fun t ht => absurd ht (by simp), rfl⟩
  | some t =>
      obtain ⟨t', hread, htext⟩ := Timestamp.exists_readable (h t rfl)
      refine ⟨some t', ?_, ?_⟩
      · intro u hu
        obtain rfl := Option.some.inj hu
        exact hread
      · show (toJson _).text = (toJson _).text
        simp only [toJson, Option.map_some, htext]

end CleanupRecord

/-- **Texts of older and newer versions are read.** Members may be gone, others
may be new, and the order does not count: what is read is the record that was
written, with the defaults in the fields that are gone and in no others. The time
of a cleanup is as the text has it, which is the time that was written if a clock
has shown it. -/
theorem edited_records_read_back :
    (∀ (r : ChangeRecord) (gone : String → Bool) (text : String),
      Edited ChangeRecord.known gone r.encode text →
        ChangeRecord.decode text = some (r.without gone)) ∧
    ∀ (r : CleanupRecord) (gone : String → Bool) (text : String),
      (∀ t ∈ r.lastAttempt, Timestamp.yearInRange t.date.year = true) →
        gone "version" = false →
      Edited CleanupRecord.known gone r.encode text →
        CleanupRecord.decode (some text) =
          (CleanupRecord.decode (some r.encode)).without gone ∧
        (r.Dated ∨ gone "last_attempt" = true →
          CleanupRecord.decode (some text) =
            { r.without gone with version := 1 }) := by
  constructor
  · intro r gone text hedited
    exact ChangeRecord.decode_edited r.decode_encode hedited
  · intro r gone text hyear hversion hedited
    obtain ⟨time, hdated, hsame⟩ := CleanupRecord.exists_dated hyear
    rw [← hsame] at hedited
    have hread := CleanupRecord.decode_edited hdated hversion hedited
    refine ⟨?_, ?_⟩
    · rw [hread, ← hsame, CleanupRecord.decode_encode hdated]
      rfl
    · rintro (hclock | hgone)
      · rw [hsame] at hedited
        exact CleanupRecord.decode_edited hclock hversion hedited
      · rw [hread]
        simp only [CleanupRecord.without, hgone, if_true]
        rfl

/-- A record of changes without most of its members, and one of a cleanup that
is to count its attempts anew; both say more than is known, and say it in the
reverse order. -/
theorem edited_records_read_back_reversed :
    ChangeRecord.decode (Json.obj [("origin", .arr [.int 1, .obj [("by", .null)]]),
        ("service_key", .str "default/web"), ("annotation_changed", .bool true),
        ("new_ip", .str "192.168.1.10")]).text =
      some { ChangeRecord.empty with
        newIp := some "192.168.1.10", mappingChanged := true, serviceKey :=
          "default/web" } ∧
    CleanupRecord.decode (some
      (Json.obj [("node", .str "a"), ("last_error", .str "timeout"),
        ("version", .int 1)]).text) =
      { CleanupRecord.fresh with lastError := some "timeout" } := by
  let noted : ChangeRecord :=
    { ChangeRecord.empty with
      newIp := some "192.168.1.10"
      mappingChanged := true
      portChanges := [⟨.added, "http", none, some 8080, none, some "TCP"⟩]
      serviceKey := "default/web" }
  let begun : CleanupRecord :=
    ⟨7, 3, .inProgress, some "timeout", some (.midnight .epoch)⟩
  constructor
  · refine edited_records_read_back.1 noted
      (fun name => name ∉ ["new_ip", "annotation_changed", "service_key"]) _ ?_
    refine edited_text noted.toJson.members
      [("origin", .arr [.int 1, .obj [("by", .null)]])] _ ?_ (by decide)
    show List.Perm (List.reverse [("new_ip", Json.str "192.168.1.10"),
      ("annotation_changed", .bool true), ("service_key", .str "default/web"),
      ("origin", .arr [.int 1, .obj [("by", .null)]])]) _
    exact List.reverse_perm _
  · have hyear : ∀ t ∈ begun.lastAttempt, Timestamp.yearInRange t.date.year = true := by
      intro t ht
      obtain rfl := Option.some.inj ht
      decide
    refine (edited_records_read_back.2 begun (fun name => name ∉ ["version",
      "last_error"]) _ hyear (by decide) ?_).2 (Or.inr (by decide))
    refine edited_text
      ({ begun with version := CleanupRecord.currentVersion } :
        CleanupRecord).toJson.members
      [("node", .str "a")] _ ?_ (by decide)
    show List.Perm (List.reverse [("version", Json.int 1), ("last_error", .str "timeout"),
      ("node", .str "a")]) _
    exact List.reverse_perm _

end PortForwarding
