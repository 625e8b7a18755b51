/-! # Request targets

The target of a request says what is asked for: a path with a query, a whole
address, the name of a host, or an asterisk for the server itself. `Target.path?`
is the path that a server looks up; what comes after a hash is not part of it. A
target that holds a character which may not stand where it stands has no path.
-/

namespace PortForwarding.Target

/-- A character that shows, or one beyond ASCII. -/
def isVisible (c : Char) : Bool :=
  decide (0x21 ≤ c.toNat) && decide (c.toNat ≠ 0x7F)

def pathBarred : List Char := ['#', '<', '>', '?', '\x60']

/-- Characters that may not stand in a query. -/
def queryBarred : List Char := ['"', '#', '<', '>']

def isPathChar (c : Char) : Bool :=
  isVisible c && !pathBarred.contains c

def isQueryChar (c : Char) : Bool :=
  isVisible c && !queryBarred.contains c

/-- The path of a target that consists of a path and a query. -/
def localPath? (cs : List Char) : Option (List Char) :=
  let cs := cs.takeWhile (· != '#')
  let path := cs.takeWhile (· != '?')
  let query := (cs.dropWhile (· != '?')).drop 1
  if path.all isPathChar && query.all isQueryChar then some path else none

/-! ## Hosts -/

/-- A character that may stand in the name of a host, or in the name of a user
before it, and has no meaning of its own there. -/
def isNameChar (c : Char) : Bool :=
  c.isAlphanum || "!$&'()*+,-.;=_~".toList.contains c

/-- What has been seen of the name of a host. -/
structure HostScan where
  /-- The colons, of which one may divide the name from the port. -/
  colons : Nat := 0
  /-- Whether there was a percent sign. -/
  percent : Bool := false
  /-- Whether a numeric address was opened by a bracket. -/
  opened : Bool := false
  /-- Whether it was closed. -/
  closed : Bool := false

namespace HostScan

/-- The number of colons that a numeric address may have, and one for the port. -/
def colonLimit : Nat := 8

/-- What has been seen after one more character. Colons and percent signs
count only after the name of the user and after a numeric address, whichever
comes last. -/
def step (s : HostScan) (c : Char) : Option HostScan :=
  match c with
  | ':' => if s.colons < colonLimit then some { s with colons := s.colons + 1 } else none
  | '[' => if s.percent || s.opened then none else some { s with opened := true }
  | ']' =>
    if s.opened && !s.closed then
      some { s with closed := true, colons := 0, percent := false }
    else none
  | '@' => some { s with colons := 0, percent := false }
  | '%' => some { s with percent := true }
  | c => if isNameChar c then some s else none

/-- Whether the name may end here. -/
def isComplete (s : HostScan) : Bool :=
  s.opened == s.closed && decide (s.colons ≤ 1) && !s.percent

end HostScan

/-- Whether a text is the name of a host, with a user before it and a port after
it or without them. -/
def isHost (cs : List Char) : Bool :=
  (cs.foldlM HostScan.step {}).any HostScan.isComplete && cs.getLast? != some '@'

/-! ## Addresses -/

/-- A character that may stand in the name of a protocol. -/
def isSchemeChar (c : Char) : Bool :=
  c.isAlphanum || c == '+' || c == '-' || c == '.'

/-- What is between the name of a protocol and the address proper. -/
def schemeMark : List Char := "://".toList

/-- The name of the protocol at the front of an address. -/
def scheme? (cs : List Char) : Option (List Char) :=
  let scheme := cs.takeWhile isSchemeChar
  if schemeMark.isPrefixOf (cs.drop scheme.length) then some scheme else none

/-- The number of characters that the name of a protocol may have. -/
def schemeLimit : Nat := 64

/-- Characters that end the name of a host in an address. -/
def hostEnds : List Char := ['/', '?', '#']

/-- The path of a target that is not local: the name of a host has none, and an
address has at least the root. -/
def remotePath? (cs : List Char) : Option (List Char) :=
  match scheme? cs with
  | none => if isHost cs then some [] else none
  | some scheme =>
    let rest := cs.drop (scheme.length + schemeMark.length)
    let host := rest.takeWhile fun c => !hostEnds.contains c
    if scheme.length ≤ schemeLimit ∧ host ≠ [] ∧ isHost host then
      (localPath? (rest.drop host.length)).map fun path =>
        if path = [] then ['/'] else path
    else none

def path? (target : String) : Option String :=
  (match target.toList with
    | [] => none
    | ['*'] => some ['*']
    | '/' :: cs => localPath? ('/' :: cs)
    | cs => remotePath? cs).map String.ofList

end PortForwarding.Target
