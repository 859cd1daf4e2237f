import Prattle.Source.Line
import Prattle.SyntaxError
import Prattle.Text.WhiteSpace

/-!
# Diagnostics

`SyntaxError.diagnostic` reports an error to a reader: what is wrong, in which file, and the line it
is blamed on with a caret under the place.

The line is shown without the blanks it starts with and the white space it ends in. The caret counts
in characters, while the position of an error counts in bytes. If the position lies beyond the text,
no line is shown.
-/

namespace Prattle

namespace Diagnostic

/-- The spaces and tabs that a line starts with are not shown. -/
def isIndent (c : Char) : Bool :=
  c = ' ' || c = '\t'

/-- The line as it is shown. -/
def shownLine (line : List Char) : String :=
  String.ofList (Text.trimEnd (line.dropWhile isIndent))

/-- How many characters start in the first `column` bytes. -/
def charsBefore (column : Nat) : List Char → Nat
  | [] => 0
  | c :: rest => if column = 0 then 0 else charsBefore (column - c.utf8Size) rest + 1

/-- How many characters of the shown line stand before the caret. -/
def caretColumn (place : Location) : Nat :=
  charsBefore place.column place.line - (place.line.takeWhile isIndent).length

/-- A text on a line of its own. -/
def line (text : String) : String :=
  text ++ "\n"

/-- The same character again and again. -/
def run (n : Nat) (c : Char) : String :=
  String.ofList (List.replicate n c)

/-- The line of the error between two bars, with its number before it and the caret under it. -/
def excerpt (place : Location) : String :=
  let number := toString place.number
  let margin := run (number.length + 1) ' ' ++ "|"
  line margin ++ line (number ++ " | " ++ shownLine place.line) ++
    line (margin ++ " " ++ run (caretColumn place) '-' ++ "^")

end Diagnostic

open Diagnostic in
/-- The report of an error in the given text. -/
def SyntaxError.diagnostic (e : SyntaxError) (text : String) : String :=
  line ("Error: " ++ e.cause.name ++ " (" ++ e.message ++ ")") ++ line ("-> " ++ e.position.file) ++
    (locate? text e.position.offset).elim "" excerpt

end Prattle
