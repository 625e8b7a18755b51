/-! # Names on a Service

The annotations and the finalizer by which a Service and the operator talk to each
other. A Service asks with the first three annotations; the operator answers with
the three of `operatorState`, which it also takes away again.
-/

namespace PortForwarding.Mark

def ports : String := "portforward.router.io/ports"

/-- The address to forward to, in place of the one in the status. -/
def ipAddress : String := "portforward.router.io/ip-address"

/-- The only source to let through. -/
def source : String := "portforward.router.io/source"

def errorContext : String := "portforward.router.io/error-context"

/-- What changed in the latest successful pass. -/
def changeContext : String := "portforward.router.io/change-context"

def cleanupState : String := "portforward.router.io/cleanup-state"

/-- The annotations that the operator writes. -/
def operatorState : List String :=
  [errorContext, changeContext, cleanupState]

/-- The finalizer that holds a Service back until its rules are gone. -/
def finalizer : String := "portforward.router.io/cleanup"

end PortForwarding.Mark
