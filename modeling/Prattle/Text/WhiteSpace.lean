/-!
# White space

Sets of characters are given in runs of code points (`Runs`). `isWhiteSpace` is the Unicode property
White_Space, `trimEnd` drops the white space that a line ends in. The property holds of 25 characters in
ten runs; core's `Char.isWhitespace` knows four of them (`isWhiteSpace_of_isWhitespace`).
-/

namespace Prattle.Text

/-- Characters in runs of code points, each given by its first and its last one. -/
abbrev Runs : Type :=
  List (Nat × Nat)

/-- The character lies in one of the runs. -/
def Runs.cover (runs : Runs) (c : Char) : Bool :=
  runs.any fun run => run.1 ≤ c.toNat && c.toNat ≤ run.2

/-- The characters with the property White_Space. -/
def whiteSpace : Runs :=
  [(0x09, 0x0d), (0x20, 0x20), (0x85, 0x85), (0xa0, 0xa0), (0x1680, 0x1680), (0x2000, 0x200a),
    (0x2028, 0x2029), (0x202f, 0x202f), (0x205f, 0x205f), (0x3000, 0x3000)]

/-- The Unicode property White_Space. -/
def isWhiteSpace (c : Char) : Bool :=
  whiteSpace.cover c

/-- What core counts as white space has the property. -/
theorem isWhiteSpace_of_isWhitespace {c : Char} (h : c.isWhitespace = true) :
    isWhiteSpace c = true := by
  simp only [Char.isWhitespace, Bool.or_eq_true, decide_eq_true_eq] at h
  rcases h with ((rfl | rfl) | rfl) | rfl <;> decide

/-- The characters before the run of white space that the list ends in. -/
def trimEnd (text : List Char) : List Char :=
  (text.reverse.dropWhile isWhiteSpace).reverse

end Prattle.Text
