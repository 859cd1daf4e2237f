import Prattle.Token.Basic
import Prattle.Token.Lexeme

/-!
# Scanning

A `Scanner` stands somewhere in a text. `step?` cuts the next token off, `tokens` all that are left,
and `endToken` marks the end of the text wherever the scanner stands. `tokenize` is the whole list
of a text: its tokens, then the end token.

* **One step makes the text shorter** (`step?_length_lt`), so `tokens` is defined by counting down
  from the number of bytes left; `tokens_of_step?` and `tokens_of_end` are its equations without the
  count.
* **No step moves the end** (`step?_endToken`).
-/

namespace Prattle

/-- A place in a text from which tokens are cut. -/
structure Scanner where
  /-- The bytes that are still to be scanned. -/
  rest : List UInt8
  /-- How many bytes stand before them. -/
  offset : Nat
  /-- The label of the file. -/
  file : String
  deriving DecidableEq, Inhabited

namespace Scanner

/-- The label of a text that comes from no file. -/
def defaultLabel : String := "shell"

/-- The scanner at the start of a text. -/
def ofText (text : String) (file : Option String) : Scanner :=
  ⟨bytes text, 0, file.getD defaultLabel⟩

/-- The scanner after the blanks that it stands before. -/
def skipBlanks (s : Scanner) : Scanner :=
  { s with
    rest := s.rest.dropWhile isBlank
    offset := s.offset + (s.rest.takeWhile isBlank).length }

/-- The token of a lexeme that starts where the scanner stands. -/
def tokenOf (s : Scanner) (lexeme : List UInt8) : Token :=
  ⟨Lexeme.kind lexeme, Lexeme.text lexeme,
    .ofRange s.file s.offset (s.offset + lexeme.length)⟩

/-- The next token and the scanner after it, nothing if only blanks are left. -/
def step? (s : Scanner) : Option (Token × Scanner) :=
  let s := s.skipBlanks
  match s.rest with
  | [] => none
  | b :: rest =>
    let lexeme := b :: Lexeme.tail b rest
    some (s.tokenOf lexeme,
      { s with rest := Lexeme.after b rest, offset := s.offset + lexeme.length })

/-- The token that marks the end of the text. -/
def endToken (s : Scanner) : Token :=
  ⟨.endOfInput, "", .ofRange s.file (s.offset + s.rest.length) (s.offset + s.rest.length)⟩

/-- The next token and the scanner after it. At the end of the text this is the end token, again and
again. -/
def nextToken (s : Scanner) : Token × Scanner :=
  s.step?.getD (s.endToken, s.skipBlanks)

/-! ### Steps -/

/-- Skipping blanks leaves no more bytes than before. -/
theorem length_skipBlanks_le (s : Scanner) : s.skipBlanks.rest.length ≤ s.rest.length :=
  (List.dropWhile_sublist _).length_le

/-- Skipping blanks does not move the end of the text. -/
theorem offset_add_length_skipBlanks (s : Scanner) :
    s.skipBlanks.offset + s.skipBlanks.rest.length = s.offset + s.rest.length := by
  have h := congrArg List.length (List.takeWhile_append_dropWhile (p := isBlank) (l := s.rest))
  simp only [List.length_append] at h
  simp only [skipBlanks]
  omega

/-- **A step makes what is left shorter.** -/
theorem step?_length_lt {s s' : Scanner} {t : Token} (h : s.step? = some (t, s')) :
    s'.rest.length < s.rest.length := by
  have hle := s.length_skipBlanks_le
  unfold step? at h
  dsimp only at h
  split at h
  · simp at h
  · rename_i b rest heq
    simp only [Option.some.injEq, Prod.mk.injEq] at h
    rw [← h.2]
    have := Lexeme.length_after_le b rest
    rw [heq, List.length_cons] at hle
    dsimp only
    omega

/-- What a step leaves comes from the same file and ends where the text ends. -/
theorem step?_offset_add_length {s s' : Scanner} {t : Token} (h : s.step? = some (t, s')) :
    s'.file = s.file ∧ s'.offset + s'.rest.length = s.offset + s.rest.length := by
  have htotal := s.offset_add_length_skipBlanks
  unfold step? at h
  dsimp only at h
  split at h
  · simp at h
  · rename_i b rest heq
    simp only [Option.some.injEq, Prod.mk.injEq] at h
    rw [← h.2]
    have hsplit := congrArg List.length (Lexeme.tail_append_after b rest)
    rw [heq] at htotal
    simp only [List.length_append, List.length_cons] at hsplit htotal ⊢
    exact ⟨rfl, by omega⟩

/-- **A step does not move the end of the text.** -/
theorem step?_endToken {s s' : Scanner} {t : Token} (h : s.step? = some (t, s')) :
    s'.endToken = s.endToken := by
  obtain ⟨hfile, hoffset⟩ := step?_offset_add_length h
  rw [endToken, hfile, hoffset, endToken]

/-! ### All tokens -/

/-- The next `n` tokens, fewer if the text ends before. -/
def tokensUpTo : Nat → Scanner → List Token
  | 0, _ => []
  | n + 1, s =>
    match s.step? with
    | none => []
    | some (t, s') => t :: tokensUpTo n s'

/-- The tokens that are left, without the end token. -/
def tokens (s : Scanner) : List Token :=
  s.tokensUpTo s.rest.length

/-- A larger count than the number of bytes left changes nothing. -/
theorem tokensUpTo_eq_tokens {n : Nat} {s : Scanner} (h : s.rest.length ≤ n) :
    s.tokensUpTo n = s.tokens := by
  have key : ∀ (n m : Nat) (s : Scanner), s.rest.length ≤ n → s.rest.length ≤ m →
      s.tokensUpTo n = s.tokensUpTo m := by
    intro n
    induction n with
    | zero =>
      intro m s hn _
      have hnone : s.step? = none := by
        rcases hs : s.step? with _ | ⟨t, s'⟩
        · rfl
        · have := step?_length_lt hs
          omega
      cases m <;> simp [tokensUpTo, hnone]
    | succ n ih =>
      intro m s hn hm
      rcases hs : s.step? with _ | ⟨t, s'⟩
      · cases m <;> simp [tokensUpTo, hs]
      · have hlt := step?_length_lt hs
        cases m with
        | zero => omega
        | succ m => simp [tokensUpTo, hs, ih m s' (by omega) (by omega)]
  exact key n s.rest.length s h (Nat.le_refl _)

/-- The first token is the one that a step cuts off, and the others are left behind it. -/
theorem tokens_of_step? {s s' : Scanner} {t : Token} (h : s.step? = some (t, s')) :
    s.tokens = t :: s'.tokens := by
  have hlt := step?_length_lt h
  unfold tokens
  cases hn : s.rest.length with
  | zero => omega
  | succ n => simp [tokensUpTo, h, tokensUpTo_eq_tokens (show s'.rest.length ≤ n by omega), tokens]

/-- Where no step can be taken, no token is left. -/
theorem tokens_of_end {s : Scanner} (h : s.step? = none) : s.tokens = [] := by
  unfold tokens
  cases s.rest.length <;> simp [tokensUpTo, h]

end Scanner

/-- The tokens of a text in order. The last is the end token, which stands at the length of the
text. -/
def tokenize (text : String) (file : Option String) : List Token :=
  let s := Scanner.ofText text file
  s.tokens ++ [s.endToken]

end Prattle
