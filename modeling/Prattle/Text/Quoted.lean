import Prattle.Text.Plain

/-!
# Quoted text

`quoted s` shows a text on one line between double quotes, so that its ends and its unprintable
characters can be seen: a quote and a backslash get a backslash, the common control characters have
their letter, and every other character that is not plain is written by its number in hexadecimal.
-/

namespace Prattle.Text

/-- How one character is written between the quotes. -/
def escape (c : Char) : String :=
  match c with
  | '"' => "\\\""
  | '\\' => "\\\\"
  | '\n' => "\\n"
  | '\r' => "\\r"
  | '\t' => "\\t"
  | '\x00' => "\\0"
  | c =>
    if isPlain c then String.singleton c
    else "\\u\x7b" ++ String.ofList (Nat.toDigits 16 c.toNat) ++ "\x7d"

/-- The text between double quotes, each character written as `escape` says. -/
def quoted (text : String) : String :=
  "\"" ++ String.join (text.toList.map escape) ++ "\""

end Prattle.Text
