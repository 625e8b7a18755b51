import PortForwarding.Record.Cleanup
import PortForwarding.Proofs.Json.RoundTrip
import PortForwarding.Proofs.Json.Row
import PortForwarding.Proofs.Time.RoundTrip

/-!
# The record of a cleanup reads back

What one pass has written about a cleanup the next one reads, error text and time
of the last attempt included (`decode_encode`). Without this the attempts of a
Service could not be counted across passes.
-/

namespace PortForwarding.CleanupRecord

open Json

/-- A record whose time of the last attempt, if it has one, a clock has shown. -/
def Dated (r : CleanupRecord) : Prop :=
  ∀ t ∈ r.lastAttempt, t.Readable

theorem caseOf?_status (s : CleanupStatus) :
    caseOf? CleanupStatus.text CleanupStatus.all (.str s.text) = some s := by
  cases s <;> decide

/-- The fields of a written record, in order; what is absent was left out. -/
theorem row_toJson (r : CleanupRecord) :
    r.toJson.row ["version", "attempts", "status", "last_error", "last_attempt"] =
      some [some (.nat r.version.toNat), some (.nat r.attempts.toNat),
        some (.str r.status.text), r.lastError.map .str,
        r.lastAttempt.map (.str ·.text)] := by
  obtain ⟨version, attempts, status, lastError, lastAttempt⟩ := r
  cases lastError with
  | none => cases lastAttempt <;> simp [toJson, row, rowOfMembers, valuesOf]
  | some e => cases lastAttempt <;> simp [toJson, row, rowOfMembers, valuesOf]

theorem optional_time {time : Option Timestamp} (h : ∀ t ∈ time, t.Readable) :
    optional (fun j => j.text?.bind Timestamp.parse) (time.map fun t =>
      Json.str t.text) = some time := by
  cases time with
  | none => rfl
  | some t =>
      have hparse := Timestamp.parse_text (h t rfl)
      simp [Json.optional, text?, hparse]

theorem ofJson_toJson {r : CleanupRecord} (h : r.Dated) :
    ofJson r.toJson = some r := by
  unfold ofJson
  rw [row_toJson]
  simp only [required, defaulted, word32?_nat, caseOf?_status, optional_text,
    optional_time h, Option.bind_eq_bind, Option.bind_some]
  rfl

/-- **A record is read back as it was written**, in the current version. -/
theorem decode_encode {r : CleanupRecord} (h : r.Dated) :
    decode (some r.encode) = { r with version := currentVersion } := by
  have hdated : Dated { r with version := currentVersion } := h
  unfold decode encode
  simp only [Option.bind_some, parse_text, ofJson_toJson hdated]
  rfl

theorem dated_fresh : fresh.Dated := by
  intro t ht
  exact absurd ht (by simp [fresh])

theorem readable_of_optional {field : Option Json} {time : Option Timestamp}
    (h : Json.optional (fun j => j.text?.bind Timestamp.parse) field = some time) :
    ∀ t ∈ time, t.Readable := by
  intro t ht
  unfold Json.optional at h
  split at h
  · obtain rfl := Option.some.inj h
    exact absurd ht (by simp)
  · obtain rfl := Option.some.inj h
    exact absurd ht (by simp)
  · obtain ⟨t', hread, rfl⟩ := Option.map_eq_some_iff.mp h
    obtain rfl : t' = t := by simpa using ht
    obtain ⟨text, -, hparse⟩ := Option.bind_eq_some_iff.mp hread
    exact Timestamp.readable_of_parse hparse

theorem dated_of_ofJson {j : Json} {r : CleanupRecord} (h : ofJson j = some r) :
    r.Dated := by
  unfold ofJson at h
  split at h
  · simp only [Option.bind_eq_bind, Option.bind_eq_some_iff] at h
    obtain ⟨version, -, attempts, -, status, -, lastError, -, time, htime, h⟩ := h
    obtain rfl := Option.some.inj h
    exact readable_of_optional htime
  · exact absurd h (by simp)

/-- **Whatever a record is read from, it can be written and read again.** -/
theorem dated_decode (text : Option String) : (decode text).Dated := by
  unfold decode
  split
  · exact dated_fresh
  · next r hread =>
      obtain ⟨s, -, hparse⟩ := Option.bind_eq_some_iff.mp hread
      obtain ⟨j, -, hjson⟩ := Option.bind_eq_some_iff.mp hparse
      split
      · exact dated_of_ofJson hjson
      · exact dated_fresh

end PortForwarding.CleanupRecord
