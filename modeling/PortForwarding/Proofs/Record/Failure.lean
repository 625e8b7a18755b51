import PortForwarding.Proofs.Record.Change
import PortForwarding.Record.Failure

/-!
# The record of a failure reads back

A failed pass counts on from the record that an earlier one has left on the
Service. It can, because that record is read as it was written, the summaries of
the operations that had failed included (`decode_encode`).
-/

namespace PortForwarding

open Json

/-! ## Summaries of operations -/

namespace OperationSummary

theorem caseOf?_kind (k : OperationKind) :
    caseOf? OperationKind.text OperationKind.all (.str k.text) = some k := by
  cases k <;> decide

theorem caseOf?_reason (r : Reason) :
    caseOf? Reason.text Reason.all (.str r.text) = some r := by
  cases r <;> decide

theorem caseOf?_mismatch (m : Mismatch) :
    caseOf? Mismatch.text Mismatch.all (.str m.text) = some m := by
  cases m <;> decide

def mismatchField (s : OperationSummary) : Option Json :=
  if s.mismatches.isEmpty then none else some (.texts (s.mismatches.map Mismatch.text))

theorem mismatchField_read (s : OperationSummary) :
    defaulted [] (listOf? (caseOf? Mismatch.text Mismatch.all)) s.mismatchField =
      some s.mismatches := by
  unfold mismatchField
  cases hnone : s.mismatches.isEmpty with
  | true =>
      rw [List.isEmpty_iff.mp hnone]
      rfl
  | false =>
      have hread := listOf?_arr caseOf?_mismatch s.mismatches
      rw [if_neg (by simp)]
      show listOf? _ (.arr ((s.mismatches.map Mismatch.text).map .str)) = _
      rw [List.map_map]
      exact hread

/-- The fields of a written summary, in order; what is absent was left out. -/
theorem row_toJson (s : OperationSummary) :
    s.toJson.row ["kind", "name", "external_port", "internal_port", "protocol",
      "destination", "reason", "existing_id", "mismatches"] =
      some [some (.str s.kind.text), some (.str s.name),
        some (.nat s.externalPort.toNat), some (.nat s.internalPort.toNat),
        some (.str s.protocol), some (.str s.destination),
        some (.str s.reason.text), s.existingId.map .str, s.mismatchField] := by
  obtain ⟨kind, name, external, internal, protocol, destination, reason, existing,
    mismatches⟩ := s
  unfold mismatchField
  cases existing with
  | none => cases mismatches <;> simp [toJson, row, rowOfMembers, valuesOf]
  | some id => cases mismatches <;> simp [toJson, row, rowOfMembers, valuesOf]

theorem ofJson_toJson (s : OperationSummary) : ofJson s.toJson = some s := by
  unfold ofJson
  rw [row_toJson]
  simp only [required, caseOf?_kind, caseOf?_reason, word16?_nat, text?,
    mismatchField_read, optional_text, Option.bind_eq_bind, Option.bind_some]
  rfl

end OperationSummary

/-! ## The record -/

namespace FailureRecord

theorem caseOf?_code (c : ErrorClass) :
    caseOf? ErrorClass.text ErrorClass.all (.str c.text) = some c := by
  cases c <;> decide

theorem caseOf?_status (s : ErrorStatus) :
    caseOf? ErrorStatus.text ErrorStatus.all (.str s.text) = some s := by
  cases s <;> decide

def operationField (r : FailureRecord) : Option Json :=
  if r.failedOperations.isEmpty then none
  else some (.arr (r.failedOperations.map OperationSummary.toJson))

theorem operationField_read (r : FailureRecord) :
    defaulted [] (listOf? OperationSummary.ofJson) r.operationField =
      some r.failedOperations := by
  unfold operationField
  cases hnone : r.failedOperations.isEmpty with
  | true =>
      rw [List.isEmpty_iff.mp hnone]
      rfl
  | false =>
      rw [if_neg (by simp)]
      exact listOf?_arr OperationSummary.ofJson_toJson r.failedOperations

/-- The fields of a written record, in order; what is absent was left out. -/
theorem row_toJson (r : FailureRecord) :
    r.toJson.row ["code", "message", "timestamp", "retry_count", "status",
      "failed_operations"] =
      some [some (.str r.code.text), some (.str r.message),
        some (.str r.timestamp.text), some (.nat r.retryCount.toNat),
        some (.str r.status.text), r.operationField] := by
  obtain ⟨code, message, timestamp, retryCount, status, failedOperations⟩ := r
  unfold operationField
  cases failedOperations <;> simp [toJson, row, rowOfMembers, valuesOf]

theorem ofJson_toJson {r : FailureRecord} (h : r.timestamp.Readable) :
    ofJson r.toJson = some r := by
  have htime : Timestamp.parse r.timestamp.text = some r.timestamp :=
    Timestamp.parse_text h
  have hcount : defaulted 0 word32? (some (.nat r.retryCount.toNat)) =
      some r.retryCount :=
    word32?_nat r.retryCount
  have hstatus : defaulted ErrorStatus.retrying (caseOf? ErrorStatus.text ErrorStatus.all)
      (some (.str r.status.text)) = some r.status := caseOf?_status r.status
  unfold ofJson
  rw [row_toJson]
  simp only [required, caseOf?_code, text?, htime, hcount, hstatus, operationField_read,
    Option.bind_eq_bind, Option.bind_some]
  rfl

/-- **A record is read back as it was written.** -/
theorem decode_encode {r : FailureRecord} (h : r.timestamp.Readable) :
    decode r.encode = some r := by
  unfold decode encode
  rw [parse_text, Option.bind_some, ofJson_toJson h]

end FailureRecord

end PortForwarding
