/-!
# Lines

A text falls into lines: each runs up to and with the next line feed, and what follows the last line
feed is one more line, empty or not. So every offset up to the length of the text lies on exactly one
line (`locate?`), the end of the text on the last.
-/

namespace Prattle

/-- The place of an offset among the lines of a text. -/
structure Location where
  /-- The number of the line, from 1. -/
  number : Nat
  /-- The characters of the line, with its line feed. -/
  line : List Char
  /-- How many bytes of the line stand before the offset. -/
  column : Nat
  deriving DecidableEq, Inhabited

/-- The number of bytes of a list of characters. -/
def byteLength : List Char → Nat
  | [] => 0
  | c :: rest => c.utf8Size + byteLength rest

/-- The lines of a text. -/
def lines : List Char → List (List Char)
  | [] => [[]]
  | '\n' :: rest => ['\n'] :: lines rest
  | c :: rest =>
    match lines rest with
    | [] => [[c]]
    | line :: more => (c :: line) :: more

/-- The line on which an offset lies, the first of the lines having the given number. The end of a
line belongs to the next one, if there is one. -/
def locateIn (number : Nat) : List (List Char) → Nat → Option Location
  | [], _ => none
  | line :: more, offset =>
    if offset < byteLength line ∨ more = [] ∧ offset = byteLength line then
      some ⟨number, line, offset⟩
    else locateIn (number + 1) more (offset - byteLength line)

/-- The line on which an offset of a text lies, none if the text is shorter. -/
def locate? (text : String) (offset : UInt32) : Option Location :=
  locateIn 1 (lines text.toList) offset.toNat

end Prattle
