import PortForwarding.Http.Authority
import PortForwarding.Text.Blank

/-! # Addresses of the router

What a client sends to a web server for an address: the path and the query of the
address, brought into normal form. Line breaks and tabs are dropped, a backslash
counts as a stroke, segments of dots are resolved, and characters that may not
stand in an address are written as percent signs and hexadecimal bytes. The
fragment is not sent. Nothing is sent for an address that does not name a host.
-/

namespace PortForwarding.Url

/-- The bytes of a character, each as a percent sign and two hexadecimal digits. -/
def percentEncode (c : Char) : List Char :=
  (String.singleton c).toUTF8.toList.flatMap fun b =>
    let digit (n : Nat) : Char := (Nat.digitChar n).toUpper
    ['%', digit (b.toNat / 16), digit (b.toNat % 16)]

/-- A character outside the printable part of ASCII. -/
def isForeign (c : Char) : Bool :=
  decide (c.toNat ≤ 0x20) || decide (0x7F ≤ c.toNat)

def pathSet : List Char :=
  ['"', '#', '<', '>', '?', '\x60', '\x7b', '\x7d']

def querySet : List Char :=
  ['"', '#', '<', '>', '\x27']

/-- A text in which characters that are foreign or in `set` are encoded. -/
def encode (set : List Char) (cs : List Char) : List Char :=
  cs.flatMap fun c => if isForeign c || set.contains c then percentEncode c else [c]

/-- The pieces of a text between characters that pass `test`. -/
def splitAt (test : Char → Bool) : List Char → List (List Char)
  | [] => [[]]
  | c :: cs =>
    if test c then [] :: splitAt test cs
    else
      match splitAt test cs with
      | [] => [[c]]
      | piece :: pieces => (c :: piece) :: pieces

/-- A segment with encoded dots written out. -/
def plainDots : List Char → List Char
  | '%' :: '2' :: e :: cs =>
      if e = 'e' ∨ e = 'E' then '.' :: plainDots cs else '%' :: '2' :: e :: cs
  | '.' :: cs => '.' :: plainDots cs
  | cs => cs

/-- The name of a drive: a letter and a colon, for which a bar may stand. -/
def isDrive : List Char → Bool
  | [letter, mark] => letter.isAlpha && (mark == ':' || mark == '|')
  | _ => false

/-- The segments before the last one, in reverse; the name of a drive is
not left. -/
def parent : List (List Char) → List (List Char)
  | [] => []
  | segment :: done => if isDrive segment then segment :: done else done

/-- The segments of a path with single dots left out and double dots resolved, in
reverse. -/
def resolve : List (List Char) → List (List Char) → List (List Char)
  | done, [] => done
  | done, segment :: rest =>
    let last := rest.isEmpty
    if plainDots segment = ['.', '.'] then
      resolve (if last then [] :: parent done else parent done) rest
    else if plainDots segment = ['.'] then
      resolve (if last then [] :: done else done) rest
    else resolve (encode pathSet segment :: done) rest

/-- A path in normal form, from the characters after its first stroke. -/
def normalPath (cs : List Char) : List Char :=
  (resolve [] (splitAt (fun c => c == '/' || c == '\\') cs)).reverse.flatMap
    fun s => '/' :: s

/-- Characters that end the authority of an address. -/
def authorityEnds : List Char := ['/', '\\', '?', '#']

def schemes : List String := ["http", "https"]

/-- The characters of an address from its authority on, if it is one for
the client. -/
def fromAuthority? (cs : List Char) : Option (List Char) :=
  let scheme := cs.takeWhile (· != ':')
  if schemes.contains (Text.lowered (String.ofList scheme)) then
    some ((cs.drop (scheme.length + 1)).dropWhile fun c => c == '/' || c == '\\')
  else none

/-- An address without the space around it and without line breaks and tabs. -/
def stripped (cs : List Char) : List Char :=
  let outer (c : Char) : Bool := decide (c.toNat ≤ 0x20)
  let cs := ((cs.dropWhile outer).reverse.dropWhile outer).reverse
  cs.filter fun c => !(c == '\t' || c == '\n' || c == '\r')

/-- What is sent to the server for the part of an address after its authority. -/
def localTarget (cs : List Char) : List Char :=
  let cs := cs.takeWhile (· != '#')
  let path := cs.takeWhile (· != '?')
  normalPath (path.drop 1) ++
    match cs.drop path.length with
    | [] => []
    | q :: query => q :: encode querySet query

/-- What is sent to the server for an address, if it names a host. -/
def target? (address : String) : Option String := do
  let cs ← fromAuthority? (stripped address.toList)
  let authority := cs.takeWhile fun c => !authorityEnds.contains c
  if Authority.isValid authority then
    return String.ofList (localTarget (cs.drop authority.length))
  else none

end PortForwarding.Url
