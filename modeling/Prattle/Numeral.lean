/-!
# Numerals

`value?` reads an integer literal. The digits are decimal unless the text starts with `0`: `0x`
announces hexadecimal digits, `0o` octal and `0b` binary ones, and a bare `0` with more text after
it octal ones. Letters count the same in both cases. A text that has no digits, has a character that
is no digit of its radix, or stands for a number above `maxValue` has no value.
-/

namespace Prattle.Numeral

/-- The digit that a character stands for: `0` to `9`, then `a` for ten up to `z`. -/
def digit? (c : Char) : Option Nat :=
  if '0' ≤ c ∧ c ≤ '9' then some (c.toNat - '0'.toNat)
  else if 'a' ≤ c ∧ c ≤ 'z' then some (c.toNat - 'a'.toNat + 10)
  else none

/-- The digit that a character stands for in a given radix. -/
def digitBelow? (radix : Nat) (c : Char) : Option Nat :=
  (digit? c).filter (· < radix)

/-- The number that digits stand for, the most significant first. -/
def ofDigits (radix : Nat) (digits : List Nat) : Nat :=
  digits.foldl (fun value digit => value * radix + digit) 0

/-- The radix of a literal in lower case, and the characters that have to be its digits. -/
def splitRadix : List Char → Nat × List Char
  | '0' :: 'x' :: digits => (16, digits)
  | '0' :: 'o' :: digits => (8, digits)
  | '0' :: 'b' :: digits => (2, digits)
  | '0' :: c :: digits => (8, c :: digits)
  | digits => (10, digits)

/-- The largest value of a literal, that of the largest signed 64-bit word. -/
def maxValue : Nat := 0x7fffffffffffffff

/-- The number that a literal stands for, however large. -/
def magnitude? (text : String) : Option Nat :=
  let (radix, digits) := splitRadix (text.toList.map Char.toLower)
  if digits.isEmpty then none
  else (digits.mapM (digitBelow? radix)).map (ofDigits radix)

/-- The value of an integer literal. -/
def value? (text : String) : Option Int64 :=
  ((magnitude? text).filter (· ≤ maxValue)).map Int64.ofNat

end Prattle.Numeral
