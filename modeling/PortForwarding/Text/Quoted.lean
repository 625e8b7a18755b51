import PortForwarding.Text.Hidden

/-! # Quoted text

How a message shows a piece of text taken from the outside: between double quotes,
with the quote and the backslash escaped, the usual control characters by their
letters, and every other character that would not show by its code point.
-/

namespace PortForwarding.Text

/-- A number in lower-case hexadecimal, without leading zeros. -/
def showHex (n : Nat) : String :=
  String.ofList (Nat.toDigits 16 n)

/-- How one character of a quoted text is written. -/
def quotedChar (c : Char) : String :=
  match c with
  | '"' => "\\\""
  | '\\' => "\\\\"
  | '\n' => "\\n"
  | '\r' => "\\r"
  | '\t' => "\\t"
  | '\x00' => "\\0"
  | c => if isHidden c then "\\u\x7b" ++ showHex c.toNat ++ "\x7d" else String.singleton c

/-- The text between quotes, fit for a message. -/
def quoted (s : String) : String :=
  "\"" ++ String.join (s.toList.map quotedChar) ++ "\""

end PortForwarding.Text
