import Prattle.SyntaxError
import Prattle.Token.Scanner

/-!
# Cursors

A `Cursor` stands on a token of a text and sees the one after it. Past the last token it stands on
the end token, however far it goes. It only ever moves forward. An `Outcome` is what reading
something from a cursor gave: a value or an error, and the cursor that the reading ended on, which
is `c.forward n` for the cursor `c` it started from (`Outcome.Follows`).
-/

namespace Prattle

/-- A place in the tokens of a text. -/
structure Cursor where
  /-- The tokens from the current one on, without the end token. -/
  tokens : List Token
  /-- The end token of the text. -/
  eof : Token
  /-- How many steps led here from the first token. -/
  index : Nat
  deriving DecidableEq, Inhabited

namespace Cursor

/-- The cursor on the first token that a scanner cuts. -/
def ofScanner (s : Scanner) : Cursor :=
  ⟨s.tokens, s.endToken, 0⟩

/-- The token that the cursor stands on. -/
def current (c : Cursor) : Token :=
  c.tokens.headD c.eof

/-- The token after the current one. -/
def lookahead (c : Cursor) : Token :=
  c.tokens.tail.headD c.eof

/-- No token is left. -/
def atEnd (c : Cursor) : Bool :=
  c.tokens.isEmpty

/-- The cursor `n` steps on. -/
def forward (c : Cursor) (n : Nat) : Cursor :=
  { c with tokens := c.tokens.drop n, index := c.index + n }

/-- The cursor on the next token. -/
def advance (c : Cursor) : Cursor :=
  c.forward 1

/-- The cursor on the next token if that is of the given kind. -/
def expect (c : Cursor) (kind : TokenKind) : Except SyntaxError Cursor :=
  if c.lookahead.kind = kind then .ok c.advance
  else .error ⟨.unexpected kind c.lookahead.kind, c.lookahead.span.start⟩

/-- The cursor on the first `;` from the current token on, or at the end. -/
def skipToSemicolon (c : Cursor) : Cursor :=
  c.forward (c.tokens.takeWhile (·.kind ≠ .semicolon)).length

/-! ### Moving forward -/

/-- No step leads nowhere. -/
@[simp] theorem forward_zero (c : Cursor) : c.forward 0 = c := by
  simp [forward]

/-- Some steps and then more are all of them. -/
@[simp] theorem forward_forward (c : Cursor) (m n : Nat) :
    (c.forward m).forward n = c.forward (m + n) := by
  simp [forward, Nat.add_assoc]

/-- One step and then some more are one more than those. -/
@[simp] theorem advance_forward (c : Cursor) (n : Nat) : c.advance.forward n = c.forward (n + 1) := by
  simp [advance, Nat.add_comm]

/-- Each step drops a token. -/
@[simp] theorem tokens_forward (c : Cursor) (n : Nat) :
    (c.forward n).tokens = c.tokens.drop n := rfl

/-- The end token stays the same. -/
@[simp] theorem eof_forward (c : Cursor) (n : Nat) : (c.forward n).eof = c.eof := rfl

/-- The index counts the steps. -/
@[simp] theorem index_forward (c : Cursor) (n : Nat) : (c.forward n).index = c.index + n := rfl

/-- One step drops one token. -/
@[simp] theorem tokens_advance (c : Cursor) : c.advance.tokens = c.tokens.tail := by
  simp [advance]

/-- One step leaves the end token the same. -/
@[simp] theorem eof_advance (c : Cursor) : c.advance.eof = c.eof := rfl

/-- One step adds one to the index. -/
@[simp] theorem index_advance (c : Cursor) : c.advance.index = c.index + 1 := rfl

/-- The token after one step is the one that was ahead. -/
theorem current_advance (c : Cursor) : c.advance.current = c.lookahead := by
  simp [current, lookahead]

/-- An expected token is there if the token ahead is of its kind, and it is one step away. -/
theorem expect_eq_ok_iff {c c' : Cursor} {kind : TokenKind} :
    c.expect kind = .ok c' ↔ c.lookahead.kind = kind ∧ c' = c.advance := by
  unfold expect
  split <;> simp_all [eq_comm]

end Cursor

/-! ### Outcomes -/

/-- What reading something from a cursor gave, and where the reading ended. A failed reading may have
moved too. -/
structure Outcome (α : Type) where
  result : Except SyntaxError α
  cursor : Cursor
  deriving Inhabited

namespace Outcome

variable {α β : Type}

/-- The reading of `next` from where a first one succeeded; a failure stays as it is. -/
def andThen (first : Outcome α) (next : α → Cursor → Outcome β) : Outcome β :=
  match first with
  | ⟨.ok a, c⟩ => next a c
  | ⟨.error e, c⟩ => ⟨.error e, c⟩

/-- A reading that succeeded is gone on with. -/
@[simp] theorem andThen_ok (a : α) (c : Cursor) (next : α → Cursor → Outcome β) :
    (Outcome.mk (.ok a) c).andThen next = next a c := rfl

/-- A reading that failed is not gone on with. -/
@[simp] theorem andThen_error (e : SyntaxError) (c : Cursor) (next : α → Cursor → Outcome β) :
    (Outcome.mk (.error e) c).andThen next = ⟨.error e, c⟩ := rfl

/-- The reading started at `c` and never moved back. -/
def Follows (r : Outcome α) (c : Cursor) : Prop :=
  ∃ n, r.cursor = c.forward n

/-- What ends where it started never moved back. -/
theorem Follows.here (x : Except SyntaxError α) (c : Cursor) : (Outcome.mk x c).Follows c :=
  ⟨0, by simp⟩

/-- What follows a later cursor follows the earlier one. -/
theorem Follows.of_forward {r : Outcome α} {c : Cursor} {n : Nat} (h : r.Follows (c.forward n)) :
    r.Follows c :=
  let ⟨m, hm⟩ := h
  ⟨n + m, by simp [hm]⟩

/-- What follows the next cursor follows the current one. -/
theorem Follows.of_advance {r : Outcome α} {c : Cursor} (h : r.Follows c.advance) : r.Follows c :=
  Follows.of_forward (n := 1) h

/-- Two readings one after the other follow the start of the first. -/
theorem Follows.andThen {first : Outcome α} {c : Cursor} {next : α → Cursor → Outcome β}
    (h : first.Follows c) (hnext : ∀ a c', (next a c').Follows c') :
    (first.andThen next).Follows c := by
  obtain ⟨r, c₁⟩ := first
  obtain ⟨n, hn⟩ := h
  have hn : c₁ = c.forward n := hn
  subst hn
  cases r with
  | ok a => exact (hnext a _).of_forward
  | error e => exact ⟨n, rfl⟩

/-- What is read after a first reading matters only where that one succeeded and ended. -/
theorem andThen_congr {first : Outcome α} {next next' : α → Cursor → Outcome β}
    (h : ∀ a, first.result = .ok a → next a first.cursor = next' a first.cursor) :
    first.andThen next = first.andThen next' := by
  obtain ⟨r, c⟩ := first
  cases r with
  | ok a => exact h a rfl
  | error e => rfl

/-- A reading that never moved back leaves no more tokens than before. -/
theorem Follows.length_le {r : Outcome α} {c : Cursor} (h : r.Follows c) :
    r.cursor.tokens.length ≤ c.tokens.length := by
  obtain ⟨n, hn⟩ := h
  simp [hn]

end Outcome

end Prattle
