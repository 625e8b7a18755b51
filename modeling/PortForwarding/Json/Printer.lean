import PortForwarding.Json.Basic

/-! # Writing JSON

Compact text: no blanks, members in order, characters outside ASCII as they are.
Only the quote, the backslash and the control characters below the blank are
escaped, by their letter where JSON has one and by four hexadecimal digits
otherwise.
-/

namespace PortForwarding.Json

/-- The lower-case hexadecimal digit of a number below sixteen. -/
def hexDigit (n : Nat) : Char :=
  (Nat.digitChar n)

def writeChar (c : Char) : List Char :=
  match c with
  | '"' => ['\\', '"']
  | '\\' => ['\\', '\\']
  | '\n' => ['\\', 'n']
  | '\r' => ['\\', 'r']
  | '\t' => ['\\', 't']
  | '\x08' => ['\\', 'b']
  | '\x0c' => ['\\', 'f']
  | c =>
    if c.toNat < 32 then
      ['\\', 'u', '0', '0', hexDigit (c.toNat / 16), hexDigit (c.toNat % 16)]
    else [c]

/-- The characters of a string literal, with its closing quote. -/
def writeChars : List Char → List Char
  | [] => ['"']
  | c :: cs => writeChar c ++ writeChars cs

def writeText (s : String) : List Char :=
  '"' :: writeChars s.toList

def writeInt : Int → List Char
  | .ofNat n => Nat.toDigits 10 n
  | .negSucc n => '-' :: Nat.toDigits 10 (n + 1)

mutual

/-- The text of a value. For `unread` it is the shortest literal that reads
as such. -/
def write : Json → List Char
  | .null => ['n', 'u', 'l', 'l']
  | .bool true => ['t', 'r', 'u', 'e']
  | .bool false => ['f', 'a', 'l', 's', 'e']
  | .int n => writeInt n
  | .str s => writeText s
  | .arr [] => ['[', ']']
  | .arr (j :: js) => '[' :: (write j ++ writeItems js)
  | .obj [] => ['\x7b', '\x7d']
  | .obj ((name, j) :: ms) =>
      '\x7b' :: (writeText name ++ ':' :: (write j ++ writeMembers ms))
  | .unread => ['-', '0']

/-- The items after the first one, with the closing bracket. -/
def writeItems : List Json → List Char
  | [] => [']']
  | j :: js => ',' :: (write j ++ writeItems js)

/-- The members after the first one, with the closing brace. -/
def writeMembers : List (String × Json) → List Char
  | [] => ['\x7d']
  | (name, j) :: ms => ',' :: (writeText name ++ ':' :: (write j ++ writeMembers ms))

end

def text (j : Json) : String :=
  String.ofList j.write

end PortForwarding.Json
