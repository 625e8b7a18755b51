import PortForwarding.Certificate.Anchor
import PortForwarding.Certificate.Base64

/-! # Certificate bundles

A bundle of certificates is a text with blocks between `-----BEGIN` and `-----END`
lines. What stands outside of blocks is ignored, and so are blocks of unknown
kinds. A block that is not closed, whose first line is not well formed, or whose
body is not in base 64, spoils the bundle. A new block can begin inside of
another: it goes on with its body.
-/

namespace PortForwarding.Certificate

/-- A block of a bundle. -/
structure Block where
  kind : String
  body : List UInt8
  deriving DecidableEq, Repr, Inhabited

namespace Bundle

/-- The lines of a text, without their line breaks. -/
def lines : List Char → List (List Char)
  | [] => [[]]
  | c :: cs =>
    if c = '\n' ∨ c = '\r' then [] :: lines cs
    else
      match lines cs with
      | [] => [[c]]
      | line :: rest => (c :: line) :: rest

/-- The kinds of blocks whose body is looked at. -/
def knownKinds : List String :=
  ["CERTIFICATE", "PUBLIC KEY", "RSA PRIVATE KEY", "PRIVATE KEY",
    "EC PRIVATE KEY", "X509 CRL", "CERTIFICATE REQUEST", "ECHCONFIG"]

/-- What a line says about the beginning of blocks. -/
inductive Opening where
  | none
  | malformed
  | block (kind : String)

def openingMark : List Char := "-----BEGIN ".toList

/-- Whether a line opens a block, and of which kind. The line ends in five dashes,
between and after which blanks may stand. -/
def opening (line : List Char) : Opening :=
  if openingMark.isPrefixOf line then
    let ending := line.reverse.takeWhile fun c => c == '-' || c == ' '
    let dashes := (ending.reverse.dropWhile (· == ' '))
    if dashes.count '-' = 5 then
      .block (String.ofList
        ((line.take (line.length - dashes.length)).drop openingMark.length))
    else .malformed
  else .none

/-- How the line begins that closes a block of a kind. -/
def closingMark (kind : String) : List Char :=
  "-----END ".toList ++ kind.toList ++ "-----".toList

/-- The blocks in the rest of a bundle, inside of the block given by its kind and
the body so far, or outside of blocks. -/
def blocksFrom? : Option (String × List Char) → List (List Char) → Option (List Block)
  | none, [] => some []
  | some _, [] => none
  | state, line :: rest =>
    match opening line with
    | .malformed => none
    | .block kind => blocksFrom? (some (kind, (state.map Prod.snd).getD [])) rest
    | .none =>
      match state with
      | none => blocksFrom? none rest
      | some (kind, body) =>
        if (closingMark kind).isPrefixOf line then
          if knownKinds.contains kind then do
            let bytes ← Base64.decode? body
            let blocks ← blocksFrom? none rest
            return ⟨kind, bytes⟩ :: blocks
          else blocksFrom? none rest
        else blocksFrom? (some (kind, body ++ line)) rest

def blocks? (text : String) : Option (List Block) :=
  blocksFrom? none (lines text.toList)

def certificates? (text : String) : Option (List (List UInt8)) :=
  (blocks? text).map fun blocks =>
    (blocks.filter (·.kind == "CERTIFICATE")).map Block.body

end Bundle

end PortForwarding.Certificate
