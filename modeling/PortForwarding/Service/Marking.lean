import PortForwarding.Script
import PortForwarding.Service.Mark

/-! # Marks on a Service

What the operator writes on a Service: its finalizer and its annotations. The list
of finalizers can only be written as a whole, so it is read first; nothing is
written if nothing would change.
-/

namespace PortForwarding.Mark

open Script

/-- The finalizers with the operator's own at the end. -/
def withOwn (names : List String) : List String :=
  names ++ [Mark.finalizer]

/-- The finalizers of all others. -/
def withoutOwn (names : List String) : List String :=
  names.filter fun n => decide (n ≠ Mark.finalizer)

/-- The operator's finalizer is put on a Service that does not have it. -/
def addFinalizer (key : ServiceKey) : ExceptT StoreError Script Unit := do
  let service ← getService key
  if service.finalizers.contains Mark.finalizer then return
  patchService key (.finalizers (withOwn service.finalizers))

/-- The finalizers of a Service, none if the Service is gone. -/
def currentFinalizers (key : ServiceKey) : ExceptT StoreError Script (List String) :=
  ExceptT.mk do
    match ← (getService key).run with
    | .ok service => return .ok service.finalizers
    | .error e => return if e.isNotFound then .ok [] else .error e

/-- The operator's finalizer is taken off a Service that has it. -/
def removeFinalizer (key : ServiceKey) : ExceptT StoreError Script Unit := do
  let names ← currentFinalizers key
  if names.contains Mark.finalizer then
    patchService key (.finalizers (withoutOwn names))

/-- Annotations of a Service are written, and those without a value taken off. -/
def annotate (key : ServiceKey) (changes : List (String × Option String)) :
    ExceptT StoreError Script Unit := do
  if changes.isEmpty then return
  patchService key (.annotations changes)

end PortForwarding.Mark
