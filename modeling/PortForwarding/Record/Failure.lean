import PortForwarding.Json.Parser
import PortForwarding.Json.Printer
import PortForwarding.Plan.Operation
import PortForwarding.Time.Reader

/-! # The record of a failure

The latest failure of a Service, noted on the Service itself: what kind of
failure, its message, when, how many attempts have failed before, and whether it
will be tried again.
-/

namespace PortForwarding

open Json

/-- The kind of a failure. -/
inductive ErrorClass where
  /-- What the Service asks for is malformed or ambiguous. -/
  | validation
  /-- An external port belongs to another Service. -/
  | portConflict
  /-- A call to the router failed. -/
  | routerOperation
  /-- The cleanup of a deleted Service failed. -/
  | cleanup
  /-- Undoing a failed plan failed. -/
  | rollback
  /-- Reading or writing the Service failed. -/
  | store
  deriving DecidableEq, Repr, Inhabited

namespace ErrorClass

def text : ErrorClass → String
  | .validation => "validation"
  | .portConflict => "port_conflict"
  | .routerOperation => "router_operation"
  | .cleanup => "cleanup"
  | .rollback => "rollback"
  | .store => "store"

def all : List ErrorClass :=
  [.validation, .portConflict, .routerOperation, .cleanup, .rollback, .store]

end ErrorClass

/-- What becomes of a failure. -/
inductive ErrorStatus where
  | retrying
  | rejected
  deriving DecidableEq, Repr, Inhabited

namespace ErrorStatus

def text : ErrorStatus → String
  | .retrying => "retrying"
  | .rejected => "rejected"

def all : List ErrorStatus :=
  [.retrying, .rejected]

end ErrorStatus

/-- The sum of two 32-bit numbers, or the largest one if the sum is larger. -/
def addSaturating (a b : UInt32) : UInt32 :=
  UInt32.ofNat (min (a.toNat + b.toNat) 4294967295)

/-- The latest failure of a Service. -/
structure FailureRecord where
  code : ErrorClass
  message : String
  timestamp : Timestamp
  /-- How many attempts had failed before. -/
  retryCount : UInt32
  status : ErrorStatus
  failedOperations : List OperationSummary
  deriving DecidableEq, Repr, Inhabited

namespace FailureRecord

/-- The record of a failure, `failures` attempts after the record `previous`. -/
def next (previous : Option FailureRecord) (failures : UInt32) (code : ErrorClass)
    (message : String) (status : ErrorStatus)
    (failedOperations : List OperationSummary) (now : Timestamp) :
    FailureRecord :=
  let failures := if failures = 0 then 1 else failures
  { code := code
    message := message
    timestamp := now
    retryCount := match previous with
      | none => failures - 1
      | some p => addSaturating p.retryCount failures
    status := status
    failedOperations := failedOperations }

def toJson (r : FailureRecord) : Json :=
  .obj ([
    ("code", .str r.code.text),
    ("message", .str r.message),
    ("timestamp", .str r.timestamp.text),
    ("retry_count", .nat r.retryCount.toNat),
    ("status", .str r.status.text)]
    ++ if r.failedOperations.isEmpty then []
      else [("failed_operations", .arr (r.failedOperations.map OperationSummary.toJson))])

def ofJson (j : Json) : Option FailureRecord :=
  match j.row ["code", "message", "timestamp", "retry_count", "status",
      "failed_operations"] with
  | some [code, message, timestamp, retryCount, status, failedOperations] => do
    return {
      code := ← required (caseOf? ErrorClass.text ErrorClass.all) code
      message := ← required text? message
      timestamp := ← required (fun j => j.text?.bind Timestamp.parse) timestamp
      retryCount := ← defaulted 0 word32? retryCount
      status := ← defaulted .retrying (caseOf? ErrorStatus.text ErrorStatus.all) status
      failedOperations := ← defaulted [] (listOf? OperationSummary.ofJson)
        failedOperations }
  | _ => none

def encode (r : FailureRecord) : String :=
  r.toJson.text

/-- The record that a text holds, if it is readable. -/
def decode (s : String) : Option FailureRecord :=
  (Json.parse s).bind ofJson

end FailureRecord

end PortForwarding
