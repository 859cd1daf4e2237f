import Prattle.Token.Scanner

/-!
# Reading tokens one by one

A `Reader` hands out the tokens of a text in two ways. `nextToken` never ends: past the last token
it gives the end token for ever. `next?` ends: once it has given the end token it gives nothing. The
two share one place in the text, and only `next?` decides when `next?` ends. A reader is a value, so
keeping one and reading on from it later repeats what was read in between.
-/

namespace Prattle

/-- A scanner, and whether `next?` has given the end token. -/
structure Reader where
  scanner : Scanner
  finished : Bool
  deriving DecidableEq, Inhabited

namespace Reader

/-- The reader at the start of a text. -/
def ofText (text : String) (file : Option String) : Reader :=
  ⟨.ofText text file, false⟩

/-- The next token, the end token whenever there is no other. -/
def nextToken (r : Reader) : Token × Reader :=
  let (t, s) := r.scanner.nextToken
  (t, { r with scanner := s })

/-- The next token, nothing once this has given the end token. -/
def next? (r : Reader) : Option (Token × Reader) :=
  if r.finished then none
  else
    let (t, s) := r.scanner.nextToken
    some (t, ⟨s, t.isEnd⟩)

/-- What `next?` gives until it gives nothing, and the reader after that. -/
def drain (r : Reader) : List Token × Reader :=
  if r.finished then ([], r)
  else
    let s := r.scanner
    (s.tokens ++ [s.endToken], ⟨{ s with rest := [], offset := s.offset + s.rest.length }, true⟩)

end Reader

end Prattle
