import Prattle.Proofs.FirstError
import Prattle.Proofs.Resynchronisation
import Prattle.Proofs.Runs

/-!
# Errors in their order

An error is blamed on one token (`SyntaxError.Blames`), and the errors of a text follow the order of
their tokens (`SyntaxError.Precedes`). Only a binding that is short of its name or its `=` leaves the
token that it is blamed on to the next statement, so that another error may be blamed on it: an operand
that it does not start.

* **What fails in an expression fails at the token under the cursor, or at a group in front of the next
  one** (`Grammar.failsAt_of_expression`).
* **The next statement starts behind the token that is blamed, or on it** (`Grammar.fails_of_statement`),
  so the errors are in order (`Grammar.precedes_of_statements`), and no three of them stand at one place
  (`SyntaxError.Precedes.countP_le`).
* **No error stands within a character** (`exists_append_of_errors`): the token in front of the one that
  is blamed is never an illegal one.
* **The errors of a text come in the order of its tokens** (`errors_in_order`).
-/

namespace Prattle

open Syntax

/-! ### What an error says of a token -/

/-- What the cause says of a token is so. -/
def Cause.Describes : Cause → Token → Prop
  | .unexpected _ found, t => t.kind = found
  | .noOperand kind, t => t.kind = kind
  | .badNumeral literal, t => t.kind = .integer ∧ t.text = literal

/-- A binding is short of its name or of its `=`. -/
def Cause.IsShortfall (cause : Cause) : Prop :=
  ∃ found, cause = .unexpected .identifier found ∨ cause = .unexpected .assign found

/-- A token is no operand. -/
def Cause.IsOfOperand (cause : Cause) : Prop :=
  (∃ kind, cause = .noOperand kind) ∨ ∃ literal, cause = .badNumeral literal

/-- The cause of a failed operand is not that of a malformed binding. -/
theorem Cause.IsOfOperand.not_isShortfall {cause : Cause} (h : cause.IsOfOperand) :
    ¬ cause.IsShortfall := by
  rintro ⟨found, rfl | rfl⟩
  · simp [IsOfOperand] at h
  · simp [IsOfOperand] at h

namespace SyntaxError

/-- The offset of the place that the error is blamed on. -/
def offset (err : SyntaxError) : Nat :=
  err.position.offset.toNat

/-- The error is blamed on the start of the token, and says of it what is so. -/
structure Blames (err : SyntaxError) (t : Token) : Prop where
  position : err.position = t.span.start
  cause : err.cause.Describes t

/-- An error stands where the token that it blames starts. -/
theorem Blames.offset_eq {err : SyntaxError} {t : Token} (h : err.Blames t) : err.offset = t.first := by
  rw [offset, h.position, Token.first]

/-- The first error stands in front of the second one. At one place a binding may be short of something,
and then an operand may be missing. -/
inductive Precedes (a b : SyntaxError) : Prop
  | front (lt : a.offset < b.offset)
  | same (eq : a.offset = b.offset) (first : a.cause.IsShortfall) (second : b.cause.IsOfOperand)

namespace Precedes

variable {a b : SyntaxError} {errs : List SyntaxError}

/-- An error that precedes another one stands no further behind. -/
theorem offset_le (h : a.Precedes b) : a.offset ≤ b.offset := by
  cases h with
  | front lt => exact Nat.le_of_lt lt
  | same eq => exact Nat.le_of_eq eq

/-- Of two errors at one place, the first is that of a binding and the second that of an operand. -/
theorem of_offset_eq (h : a.Precedes b) (heq : a.offset = b.offset) :
    a.cause.IsShortfall ∧ b.cause.IsOfOperand := by
  cases h with
  | front lt => omega
  | same _ first second => exact ⟨first, second⟩

/-- Errors in order that stand at one place are neighbours. -/
theorem eq_succ_of_offset_eq (h : errs.Pairwise Precedes) {i j : Nat} (hij : i < j)
    (hi : errs[i]? = some a) (hj : errs[j]? = some b) (heq : a.offset = b.offset) :
    j = i + 1 ∧ a.cause.IsShortfall ∧ b.cause.IsOfOperand := by
  obtain ⟨hilt, rfl⟩ := List.getElem?_eq_some_iff.mp hi
  obtain ⟨hjlt, rfl⟩ := List.getElem?_eq_some_iff.mp hj
  rw [List.pairwise_iff_getElem] at h
  refine ⟨?_, (h i j hilt hjlt hij).of_offset_eq heq⟩
  by_contra hne
  -- one in between would be the second of a pair and the first of another
  have hbefore := h i (i + 1) hilt (by omega) (by omega)
  have hbehind := h (i + 1) j (by omega) hjlt (by omega)
  have hle := hbefore.offset_le
  have hle' := hbehind.offset_le
  exact (hbefore.of_offset_eq (by omega)).2.not_isShortfall (hbehind.of_offset_eq (by omega)).1

/-- Of errors in order no three stand at one place. -/
theorem countP_le (h : errs.Pairwise Precedes) (o : Nat) : errs.countP (·.offset = o) ≤ 2 := by
  rw [List.countP_eq_length_filter]
  have hplace : ∀ err ∈ errs.filter (·.offset = o), err.offset = o := fun err herr => by
    simpa using List.of_mem_filter herr
  have horder := h.filter (·.offset = o)
  rcases hsame : errs.filter (·.offset = o) with _ | ⟨a, _ | ⟨b, _ | ⟨d, rest⟩⟩⟩
  · simp [hsame]
  · simp [hsame]
  · simp [hsame]
  · rw [hsame] at hplace horder
    simp only [List.pairwise_cons, List.forall_mem_cons] at hplace horder
    have hfirst := horder.1.1.of_offset_eq (by omega)
    have hsecond := horder.2.1.1.of_offset_eq (by omega)
    exact absurd hsecond.1 hfirst.2.not_isShortfall

end Precedes

end SyntaxError

/-! ### Cursors on sorted tokens -/

namespace Cursor

/-- The tokens from the current one on start one behind the other, and the end token is the last. -/
def Sorted (c : Cursor) : Prop :=
  (c.tokens ++ [c.eof]).Pairwise fun t u => t.first < u.first

variable {c : Cursor}

/-- The current token is one of the tokens left, or the end token. -/
theorem current_mem (c : Cursor) : c.current ∈ c.tokens ++ [c.eof] := by
  obtain ⟨_ | ⟨t, ts⟩, eof, i⟩ := c <;> simp [current]

/-- Tokens in their order stay in it from any later token on. -/
theorem Sorted.forward (h : c.Sorted) (n : Nat) : (c.forward n).Sorted :=
  h.sublist ((List.drop_sublist _ _).append_right _)

/-- Before the end, every token ahead starts further behind than the current one. -/
theorem Sorted.first_lt (h : c.Sorted) (hend : c.atEnd = false) (n : Nat) :
    c.current.first < (c.forward (n + 1)).current.first := by
  unfold Sorted at h
  rw [tokens_of_not_atEnd hend, List.cons_append] at h
  apply List.rel_of_pairwise_cons h
  rw [← advance_forward]
  exact ((List.drop_sublist n _).append_right _).subset (current_mem _)

/-- Where tokens are left further on, they were left before. -/
theorem atEnd_eq_false_of_forward {n : Nat} (h : (c.forward n).atEnd = false) : c.atEnd = false := by
  rw [Bool.eq_false_iff] at h ⊢
  intro hend
  simp_all [atEnd]

/-- No token ahead starts in front of the current one. -/
theorem Sorted.first_le (h : c.Sorted) (n : Nat) :
    c.current.first ≤ (c.forward n).current.first := by
  rcases hend : c.atEnd with _ | _
  · cases n with
    | zero => simp
    | succ n => exact Nat.le_of_lt (h.first_lt hend n)
  · have hnil : c.tokens = [] := by simpa [atEnd] using hend
    simp [current, hnil]

end Cursor

namespace Grammar

variable {c c' : Cursor} {err : SyntaxError}

/-! ### Expressions that fail -/

/-- A reading of an expression fails on a token that is no operand, or on the last token of a group that
no `)` follows. -/
inductive FailsAt : SyntaxError → Cursor → Prop
  | noOperand {c : Cursor} : FailsAt c.current.noOperand c
  | badNumeral {c : Cursor} (kind : c.current.kind = .integer) :
      FailsAt ⟨.badNumeral c.current.text, c.current.span.start⟩ c
  | unclosed {c : Cursor} (inside : c.atEnd = false) (kind : c.current.kind ≠ .semicolon) :
      FailsAt ⟨.unexpected .rightParen c.lookahead.kind, c.lookahead.span.start⟩ c

/-- An operand fails as expressions do, if those inside it do so. -/
theorem failsAt_of_operand (hc : c.Terminated)
    (inner : ∀ (bp : BindingPower) (err : SyntaxError) (c' : Cursor),
      standard.expression bp c.advance = ⟨.error err, c'⟩ → FailsAt err c')
    (h : standard.operand standard.expression c = ⟨.error err, c'⟩) : FailsAt err c' := by
  rcases operand_eq_error h with ⟨rfl, rfl | ⟨hkind, rfl⟩⟩ | ⟨op, -, harg⟩ |
      ⟨-, hinner | ⟨e, hinner, hexpect⟩⟩
  · exact .noOperand
  · exact .badNumeral hkind
  · exact inner _ _ _ harg
  · exact inner _ _ _ hinner
  · rw [Cursor.expect_eq_error hexpect]
    have hend := (terminated_of_expression hc.advance hinner).atEnd_eq_false rfl
      (steps_of_expression standard_within_text hinner)
    exact .unclosed hend (steps_of_expression standard_within hinner)

/-- **An expression that fails** does so at a token that is no operand, or in front of a token that does
not close a group. -/
theorem failsAt_of_expression {bp : BindingPower} (hc : c.Terminated)
    (h : standard.expression bp c = ⟨.error err, c'⟩) : FailsAt err c' := by
  generalize hn : c.tokens.length = n
  induction n using Nat.strongRecOn generalizing bp err c c' with
  | ind n ih =>
    subst hn
    rcases expression_eq_error h with ⟨-, rfl, rfl⟩ | ⟨hend, hoperand | ⟨left, c₁, hoperand, hclimb⟩⟩
    · exact .noOperand
    · have hlt := Cursor.length_advance_lt_of_not_atEnd hend
      exact failsAt_of_operand hc (fun bp err c' => (ih _ hlt hc.advance · rfl)) hoperand
    · have hc₁ := terminated_of_operand hc hoperand
      have hle : c₁.tokens.length ≤ c.tokens.length := length_operand_le hoperand
      -- every right operand starts behind `c₁`, so the induction hypothesis is about it
      revert hc₁ hle hclimb
      refine climb_induction (motive := fun _ d r => r = ⟨.error err, c'⟩ → d.Terminated →
        d.tokens.length ≤ c.tokens.length → FailsAt err c') ?_ ?_ ?_ left c₁
      · rintro left d - ⟨⟩
      · rintro left d op err c' hop hr ⟨⟩ hd hle
        have hadvance := Cursor.length_advance_lt_of_not_atEnd (atEnd_of_operatorAhead? hop)
        have hle' := d.length_advance_le
        exact ih _ (by omega) hd.advance.advance (operation_eq_error hr) rfl
      · intro left d op e d' hop hr ih' hclimb hd hle
        have hlt : d'.tokens.length < d.tokens.length := length_operation_lt hop hr
        exact ih' hclimb (terminated_of_operation hd.advance hr) (by omega)

/-- A failure blames the token that it happened at. -/
theorem FailsAt.blames (h : FailsAt err c) : err.Blames (c.forward err.cause.ahead).current := by
  cases h with
  | noOperand => exact ⟨rfl, rfl⟩
  | badNumeral kind => exact ⟨rfl, kind, rfl⟩
  | unclosed =>
    have hahead : (c.forward 1).current = c.lookahead := c.current_advance
    rw [Cause.ahead, hahead]
    exact ⟨rfl, rfl⟩

/-! ### Statements that fail -/

/-- The failure of a statement that starts at `c` and is followed by one that starts at `next`. -/
structure Fails (c next : Cursor) (failure : Failure) : Prop where
  blames : failure.error.Blames failure.last.current
  /-- Only an operand is missing where the statement starts. -/
  starts : ∃ n, failure.last = c.forward n ∧ (n = 0 → failure.error.cause.IsOfOperand)
  /-- Only where a binding is short of something the next statement starts on the token that is blamed. -/
  resumes : ∃ n, next = failure.last.forward n ∧ (n = 0 → failure.error.cause.IsShortfall)

/-- A binding that fails leaves the token that it is blamed on. -/
theorem fails_of_binding (h : c.binding = ⟨.error err, c'⟩) : Fails c c'.advance ⟨err, c'⟩ := by
  have hshort : ∀ {d : Cursor} {n : Nat} {kind : TokenKind}, kind = .identifier ∨ kind = .assign →
      d = c.forward n → d.expect kind = .error err → Fails c d.advance ⟨err, d⟩ := by
    intro d n kind hkind hd hexpect
    rw [Cursor.expect_eq_error hexpect]
    refine ⟨⟨?_, ?_⟩, ⟨n + 1, ?_, ?_⟩, ⟨0, ?_, ?_⟩⟩
    · exact congrArg (·.span.start) d.current_advance.symm
    · exact congrArg Token.kind d.current_advance
    · rw [Failure.last, hd]
      exact Cursor.forward_forward _ _ _
    · exact fun hzero => absurd hzero (Nat.succ_ne_zero n)
    · exact (Cursor.forward_zero _).symm
    · rcases hkind with rfl | rfl
      · exact fun _ => ⟨_, .inl rfl⟩
      · exact fun _ => ⟨_, .inr rfl⟩
  rcases Cursor.binding_eq_error h with ⟨rfl, hexpect⟩ | ⟨rfl, -, hexpect⟩
  · exact hshort (.inl rfl) (Cursor.forward_zero _).symm hexpect
  · exact hshort (.inr rfl) rfl hexpect

/-- After an expression that fails reading goes on behind the token that it is blamed on. -/
theorem fails_of_expression (hc : c.Terminated)
    (h : standard.expression .lowest c = ⟨.error err, c'⟩) :
    Fails c c'.skipToSemicolon.advance ⟨err, c'⟩ := by
  obtain ⟨m, hm⟩ := standard.follows_expression .lowest c
  rw [h] at hm
  have hm : c' = c.forward m := hm
  have hfails := failsAt_of_expression hc h
  refine ⟨hfails.blames, ?_, ?_⟩
  · refine ⟨m + err.cause.ahead, ?_, ?_⟩
    · rw [Failure.last, hm, Cursor.forward_forward]
    · intro hzero
      cases hfails with
      | noOperand => exact .inl ⟨_, rfl⟩
      | badNumeral => exact .inr ⟨_, rfl⟩
      | unclosed => simp [Cause.ahead] at hzero
  · have hskip : ∀ d : Cursor, ∃ k, d.skipToSemicolon.advance = d.forward (k + 1) := fun d =>
      ⟨_, by rw [Cursor.skipToSemicolon, Cursor.advance, Cursor.forward_forward]⟩
    cases hfails with
    | noOperand | badNumeral =>
      obtain ⟨k, hk⟩ := hskip c'
      exact ⟨k + 1, hk, fun hzero => absurd hzero (Nat.succ_ne_zero k)⟩
    | unclosed inside kind =>
      -- the cursor is still inside the expression, so the next token is skipped too
      rw [Cursor.skipToSemicolon_of_ne inside kind]
      obtain ⟨k, hk⟩ := hskip c'.advance
      exact ⟨k + 1, hk, fun hzero => absurd hzero (Nat.succ_ne_zero k)⟩

/-- **The next statement starts behind the token that is blamed, or on it.** -/
theorem fails_of_statement {failure : Failure} (hc : c.Terminated)
    (h : (standard.statement c).failure? = some failure) :
    Fails c (standard.statement c).cursor.advance failure := by
  rcases standard_statement_failure? h with ⟨-, hbinding, hcursor⟩ | ⟨hexpression, hcursor⟩
  · rw [hcursor]
    exact fails_of_binding hbinding
  · rw [hcursor]
    exact fails_of_expression hc hexpression

/-! ### All statements -/

/-- Where there are errors, it is not the end. -/
theorem atEnd_eq_false_of_mem (h : err ∈ Reading.errors (standard.statements c)) :
    c.atEnd = false := by
  rw [Bool.eq_false_iff]
  intro hend
  rw [statements_of_atEnd hend] at h
  simp at h

/-- The error does not stand in front of the cursor, and on the current token only an operand is missing. -/
def IsFrom (c : Cursor) (err : SyntaxError) : Prop :=
  c.current.first ≤ err.offset ∧ (c.current.first = err.offset → err.cause.IsOfOperand)

section fails

variable {next : Cursor} {failure : Failure}

/-- A statement does not fail in front of its first token, and on that one only for want of an
operand. -/
theorem Fails.isFrom (h : Fails c next failure) (hs : c.Sorted) (hend : c.atEnd = false) :
    IsFrom c failure.error := by
  obtain ⟨n, hn, hoperand⟩ := h.starts
  rw [IsFrom, h.blames.offset_eq, hn]
  refine ⟨hs.first_le n, fun heq => hoperand ?_⟩
  rcases n with _ | n
  · rfl
  · have hlt := hs.first_lt hend n
    omega

/-- A failure precedes every error from the next statement on. -/
theorem Fails.precedes (h : Fails c next failure) (hs : c.Sorted) (hend : next.atEnd = false)
    (herr : IsFrom next err) : failure.error.Precedes err := by
  obtain ⟨m, hm, -⟩ := h.starts
  obtain ⟨n, rfl, hshortfall⟩ := h.resumes
  have hlast : failure.last.Sorted := by
    rw [hm]
    exact hs.forward m
  obtain ⟨hle, hoperand⟩ := herr
  rcases n with _ | n
  · rw [Cursor.forward_zero, ← h.blames.offset_eq] at hle hoperand
    rcases Nat.lt_or_eq_of_le hle with hlt | heq
    · exact .front hlt
    · exact .same heq (hshortfall rfl) (hoperand heq)
  · have hlt := hlast.first_lt (Cursor.atEnd_eq_false_of_forward hend) n
    rw [← h.blames.offset_eq] at hlt
    exact .front (Nat.lt_of_lt_of_le hlt hle)

end fails

/-- **The errors are in order**, and none stands in front of the cursor. -/
theorem precedes_of_statements (hc : c.Terminated) (hs : c.Sorted) :
    (Reading.errors (standard.statements c)).Pairwise SyntaxError.Precedes ∧
      ∀ err ∈ Reading.errors (standard.statements c), IsFrom c err := by
  induction c using standard.statements_induction with
  | atEnd c hend =>
    rw [statements_of_atEnd hend]
    exact ⟨.nil, fun err herr => absurd herr List.not_mem_nil⟩
  | statement c hend ih =>
    obtain ⟨m, hm⟩ := standard.exists_advance_eq_forward c
    obtain ⟨horder, hnext⟩ := ih (terminated_after_statement hc) (by rw [hm]; exact hs.forward _)
    have hlater : ∀ err ∈ Reading.errors (standard.statements (standard.statement c).cursor.advance),
        IsFrom c err := by
      intro err herr
      have hle := (hnext err herr).1
      have hlt := hs.first_lt hend m
      rw [← hm] at hlt
      exact ⟨by omega, fun heq => by omega⟩
    rw [statements_of_not_atEnd hend, Reading.errors_cons]
    rcases hfailure : (standard.statement c).failure? with _ | failure
    · exact ⟨horder, hlater⟩
    · have hfails := fails_of_statement hc hfailure
      refine ⟨List.pairwise_cons.mpr ⟨fun err herr => ?_, horder⟩,
        List.forall_mem_cons.mpr ⟨hfails.isFrom hs hend, hlater⟩⟩
      exact hfails.precedes hs (atEnd_eq_false_of_mem herr) (hnext err herr)

end Grammar

namespace Reading

/-- **A run that something follows does not end with an illegal token.** -/
theorem Takes.getLast?_ne_illegal {eof : Token} {r : Reading (Option Stmt)} {run rest : List Token}
    (h : r.Takes eof run rest) (hne : rest ≠ []) : ∀ t ∈ run.getLast?, t.kind ≠ .illegal := by
  cases h with
  | binding kind isName isAssign skipped isEnd => exact isEnd.getLast?_ne_illegal hne
  | returning kind skipped isEnd => exact isEnd.getLast?_ne_illegal hne
  | broken starts stands skipped isEnd => exact isEnd.getLast?_ne_illegal hne
  | expression covers passed =>
    cases passed with
    | semicolon kind => exact (@IsEnd.semicolon _ rest kind).getLast?_ne_illegal hne
    | none ahead =>
      rw [List.append_nil]
      exact fun t ht => covers.derives.kind_ne_illegal t (List.mem_of_getLast? ht)
  | unnamed kind =>
    rintro t ⟨⟩
    simp [kind]
  | unassigned kind isName =>
    rintro t ⟨⟩
    simp [isName]

end Reading

namespace Grammar

variable {c : Cursor} {err : SyntaxError}

/-- **Every error is blamed on a token**, and the token in front of it is not an illegal one. -/
theorem exists_blamed (hc : c.Terminated) (h : err ∈ Reading.errors (standard.statements c)) :
    ∃ n pre, c.tokens = pre ++ (c.forward n).tokens ∧ err.Blames (c.forward n).current ∧
      ∀ t ∈ pre.getLast?, t.kind ≠ .illegal := by
  induction c using standard.statements_induction with
  | atEnd c hend =>
    rw [atEnd_eq_false_of_mem h] at hend
    cases hend
  | statement c hend ih =>
    rw [statements_of_not_atEnd hend, Reading.errors_cons, List.mem_append] at h
    rcases h with h | h
    · obtain ⟨failure, hfailure, rfl⟩ : ∃ failure,
          (standard.statement c).failure? = some failure ∧ failure.error = err := by simpa using h
      obtain ⟨-, pre, hpre, -, hlegal⟩ := stopsAt_of_statement hc hend hfailure
      obtain ⟨hblames, ⟨k, hk, -⟩, -⟩ := fails_of_statement hc hfailure
      rw [hk] at hpre hblames
      exact ⟨k, pre, hpre, hblames, fun t ht => hlegal t (List.mem_of_getLast? ht)⟩
    · obtain ⟨k, pre, hpre, hblames, hlegal⟩ := ih (terminated_after_statement hc) h
      -- an error of a later statement is blamed as far behind as this statement reaches
      obtain ⟨run, hrun, htakes⟩ := takes_statement hc hend
      obtain ⟨m, hm⟩ := standard.exists_advance_eq_forward c
      rw [hm, Cursor.forward_forward] at hpre hblames
      refine ⟨_, run ++ pre, ?_, hblames, ?_⟩
      · rw [hrun, hm, hpre, List.append_assoc]
      · rcases pre with _ | ⟨t, pre⟩
        · rw [List.append_nil]
          exact htakes.getLast?_ne_illegal (List.isEmpty_eq_false_iff.mp (atEnd_eq_false_of_mem h))
        · rwa [List.getLast?_append_of_ne_nil _ (List.cons_ne_nil _ _)]

end Grammar

/-! ### Texts -/

section texts

variable {text : String} {file : Option String} {err : SyntaxError}

/-- **The tokens of a text stand in their order**, if its offsets can be counted. -/
theorem Cursor.sorted_ofText (hsize : text.utf8ByteSize < 2 ^ 32) : (ofText text file).Sorted := by
  have hsorted := (isTokenization_tokenize text file hsize).sorted
  rwa [tokenize_eq, ← Cursor.eof_ofText] at hsorted

/-- Tokens of a text that start at one place are one token. -/
theorem eq_of_first_eq (hsize : text.utf8ByteSize < 2 ^ 32) {t u : Token}
    (ht : t ∈ tokenize text file) (hu : u ∈ tokenize text file) (heq : t.first = u.first) : t = u := by
  have hsorted := (isTokenization_tokenize text file hsize).sorted
  obtain ⟨a, b, hab⟩ := List.append_of_mem ht
  obtain ⟨a', b', hab'⟩ := List.append_of_mem hu
  rw [hab] at hsorted
  exact (eq_of_pairwise_lt hsorted (hab.symm.trans hab') heq).2.1

/-- **Every error of a text is blamed on a token**, in front of which the text can be cut. -/
theorem exists_append_of_errors (hsize : text.utf8ByteSize < 2 ^ 32)
    (h : err ∈ (parse text file).2) :
    (∃ t ∈ tokenize text file, err.Blames t) ∧
      ∃ before after, text = before ++ after ∧ before.utf8ByteSize = err.offset := by
  rw [parse_eq] at h
  obtain ⟨n, pre, hpre, hblames, hlegal⟩ :=
    Grammar.exists_blamed (Cursor.terminated_ofText text file) h
  obtain ⟨before, after, htext, hbytes, -⟩ := exists_append_of_cursor hsize hpre hlegal
  refine ⟨⟨_, ?_, hblames⟩, before, after, htext, ?_⟩
  · have hmem := Cursor.current_mem ((Cursor.ofText text file).forward n)
    rw [tokenize_eq, ← Cursor.eof_ofText]
    exact ((List.drop_sublist n _).append_right _).subset hmem
  · rw [hbytes, hblames.offset_eq]

/-- **The errors of a text come in the order of its tokens.** Every error is blamed on a token, says of it
what is so, and stands between two characters of the text. Two errors at one place are neighbours: a
binding is short of its name or its `=`, and then the token that was found instead is no operand. No three
errors stand at one place. -/
theorem errors_in_order (text : String) (file : Option String) (hsize : text.utf8ByteSize < 2 ^ 32) :
    (parse text file).2.Pairwise (fun a b => a.offset ≤ b.offset) ∧
    (∀ err ∈ (parse text file).2, err.offset ≤ text.utf8ByteSize ∧
      (∃ t ∈ tokenize text file, err.Blames t) ∧
      ∃ before after, text = before ++ after ∧ before.utf8ByteSize = err.offset) ∧
    (∀ (i j : Nat) (a b : SyntaxError), i < j → (parse text file).2[i]? = some a →
      (parse text file).2[j]? = some b → a.offset = b.offset →
        j = i + 1 ∧ a.cause.IsShortfall ∧ b.cause.IsOfOperand ∧
          ∃ t ∈ tokenize text file, a.Blames t ∧ b.Blames t) ∧
    ∀ o, (parse text file).2.countP (·.offset = o) ≤ 2 := by
  have horder : (parse text file).2.Pairwise SyntaxError.Precedes := by
    rw [parse_eq]
    exact (Grammar.precedes_of_statements (Cursor.terminated_ofText text file)
      (Cursor.sorted_ofText hsize)).1
  refine ⟨horder.imp SyntaxError.Precedes.offset_le, ?_, ?_, SyntaxError.Precedes.countP_le horder⟩
  · intro err herr
    exact ⟨(offset_le_of_parse text file).2 err herr, exists_append_of_errors hsize herr⟩
  · intro i j a b hij ha hb heq
    obtain ⟨hj, hshortfall, hoperand⟩ :=
      SyntaxError.Precedes.eq_succ_of_offset_eq horder hij ha hb heq
    obtain ⟨⟨t, ht, hat⟩, -⟩ := exists_append_of_errors hsize (List.mem_of_getElem? ha)
    obtain ⟨⟨u, hu, hbu⟩, -⟩ := exists_append_of_errors hsize (List.mem_of_getElem? hb)
    have htu : t = u := eq_of_first_eq hsize ht hu (by rw [← hat.offset_eq, heq, hbu.offset_eq])
    subst htu
    exact ⟨hj, hshortfall, hoperand, t, ht, hat, hbu⟩

/-- A binding short of its name in front of a character beyond ASCII, one short of its `=` in front of a
number without a value, and an open group at the end. -/
theorem errors_in_order_doubled :
    "let é; let x 09; (1 + ".utf8ByteSize < 2 ^ 32 ∧
    (parse "let é; let x 09; (1 + " none).2.map (·.offset) = [4, 4, 14, 14, 23] ∧
    (parse "let é; let x 09; (1 + " none).2.Pairwise (fun a b => a.offset ≤ b.offset) ∧
    ∃ t ∈ tokenize "let é; let x 09; (1 + " none,
      (SyntaxError.mk (.unexpected .assign .integer) ⟨14, "shell"⟩).Blames t ∧
      (SyntaxError.mk (.badNumeral "09") ⟨14, "shell"⟩).Blames t := by
  have hsize : "let é; let x 09; (1 + ".utf8ByteSize < 2 ^ 32 := by decide
  obtain ⟨horder, -, hpairs, -⟩ := errors_in_order "let é; let x 09; (1 + " none hsize
  obtain ⟨-, -, -, t, ht, hassign, hnumeral⟩ :=
    hpairs 2 3 ⟨.unexpected .assign .integer, ⟨14, "shell"⟩⟩ ⟨.badNumeral "09", ⟨14, "shell"⟩⟩
      (by simp) (by decide) (by decide) rfl
  exact ⟨hsize, by decide, horder, t, ht, hassign, hnumeral⟩

end texts

end Prattle
