import Mathlib.Tactic.SplitIfs
import Prattle.Parser
import Prattle.Proofs.Lexemes

/-!
# What parsing gives, reading by reading

`parse` folds a parser over the readings of the statements of a text. Here its two results are read
off those readings, without the parser.

* **The program is the values of the readings, the errors are their failures** (`parse_eq`).
* **The end of a text is a token of its own kind** (`Cursor.Terminated`): the end token is the only
  one of kind `endOfInput`, on every cursor of a text (`terminated_ofText`).
* **A statement is a rule of its own or an expression, and was read or was not**: the four
  `Grammar.statement_of_…` lemmas say what its reading then is, so nothing later unfolds it.
-/

namespace Prattle

/-! ### The results of parsing -/

namespace Reading

/-- The statements that readings gave, without those that were dropped. -/
def values (rs : List (Reading (Option Stmt))) : List Stmt :=
  rs.filterMap (·.value)

/-- The errors that readings met. -/
def errors (rs : List (Reading (Option Stmt))) : List SyntaxError :=
  rs.filterMap fun r => r.failure?.map (·.error)

/-- No reading gives no statement. -/
@[simp] theorem values_nil : values [] = [] := rfl

/-- No reading meets no error. -/
@[simp] theorem errors_nil : errors [] = [] := rfl

/-- The statement of the first reading comes in front of the others. -/
theorem values_cons (r : Reading (Option Stmt)) (rs : List (Reading (Option Stmt))) :
    values (r :: rs) = r.value.toList ++ values rs := by
  rw [values, List.filterMap_cons]
  cases r.value <;> rfl

/-- The error of the first reading comes in front of the others. -/
theorem errors_cons (r : Reading (Option Stmt)) (rs : List (Reading (Option Stmt))) :
    errors (r :: rs) = (r.failure?.map (·.error)).toList ++ errors rs := by
  rw [errors, List.filterMap_cons]
  cases r.failure? <;> rfl

end Reading

/-- The cursor on the first token of a text. -/
def Cursor.ofText (text : String) (file : Option String) : Cursor :=
  .ofScanner (.ofText text file)

namespace Parser

/-- A parser that moves on records no error. -/
theorem errors_moveTo (p : Parser) (c : Cursor) : (p.moveTo c).errors = p.errors := rfl

/-- Taking a reading records its error, if it failed. -/
theorem errors_take {α : Type} (p : Parser) (r : Reading α) :
    (p.take r).2.errors.toList = p.errors.toList ++ (r.failure?.map (·.error)).toList := by
  unfold take
  rcases r.failure? with _ | failure
  · simp [errors_moveTo]
  · simp [errors_moveTo, record]

/-- Taking a statement records its error, if it failed. -/
theorem errors_pass (p : Parser) (r : Reading (Option Stmt)) :
    (p.pass r).errors.toList = p.errors.toList ++ (r.failure?.map (·.error)).toList := by
  rw [← errors_take]
  unfold pass advance
  rcases p.take r with ⟨_ | s, q⟩ <;> rfl

/-- Taking statement after statement records their errors in this order. -/
theorem errors_foldl_pass (rs : List (Reading (Option Stmt))) (p : Parser) :
    (rs.foldl pass p).errors.toList = p.errors.toList ++ Reading.errors rs := by
  induction rs generalizing p with
  | nil => simp
  | cons r rs ih => rw [List.foldl_cons, ih, errors_pass, Reading.errors_cons, List.append_assoc]

end Parser

/-- **Parsing gives the values and the failures of the readings of a text.** -/
theorem parse_eq (text : String) (file : Option String) :
    parse text file =
      (⟨Reading.values (Grammar.standard.statements (.ofText text file))⟩,
        Reading.errors (Grammar.standard.statements (.ofText text file))) := by
  refine Prod.ext rfl ?_
  show (List.foldl Parser.pass _ _).errors.toList = _
  rw [Parser.errors_foldl_pass]
  rfl

/-! ### The end of a text -/

/-- The kinds that words have. -/
def TokenKind.wordKinds : List TokenKind :=
  identifier :: reserved.map Prod.snd

/-- The kind of a word is `identifier` or that of a keyword. -/
theorem TokenKind.ofWord_mem (word : String) : ofWord word ∈ wordKinds := by
  unfold ofWord
  rcases h : reserved.lookup word with _ | kind
  · exact List.mem_cons_self
  · obtain ⟨before, after, hsplit, -⟩ := List.lookup_eq_some_iff.mp h
    refine List.mem_cons_of_mem _ (List.mem_map.mpr ⟨(word, kind), ?_, rfl⟩)
    rw [hsplit]
    exact List.mem_append_right _ List.mem_cons_self

/-- No word stands for the end of the text. -/
theorem TokenKind.ofWord_ne_endOfInput (word : String) : ofWord word ≠ .endOfInput := by
  have hnone : ∀ kind ∈ wordKinds, kind ≠ .endOfInput := by decide
  exact hnone _ (ofWord_mem word)

/-- No punctuation mark stands for the end of the text. -/
theorem TokenKind.ofPunctuation?_ne_endOfInput (b : UInt8) :
    (ofPunctuation? b).getD .illegal ≠ .endOfInput := by
  unfold ofPunctuation?
  split <;> simp

/-- Only the empty lexeme stands for the end of the text. -/
theorem Lexeme.kind_cons_ne_endOfInput (b : UInt8) (tail : List UInt8) :
    kind (b :: tail) ≠ .endOfInput := by
  rw [kind]
  split_ifs
  · exact TokenKind.ofWord_ne_endOfInput _
  · simp
  · simp
  · simp
  · simp
  · simp
  · exact TokenKind.ofPunctuation?_ne_endOfInput b

/-- **No token that is cut off stands for the end of the text.** -/
theorem Scanner.kind_ne_endOfInput {s : Scanner} :
    ∀ t ∈ s.tokens, t.kind ≠ .endOfInput := by
  generalize hn : s.rest.length = n
  induction n using Nat.strongRecOn generalizing s with
  | ind n ih =>
    subst hn
    rcases hrest : s.rest.dropWhile isBlank with _ | ⟨b, rest⟩
    · simp [tokens_of_end (step?_of_nil hrest)]
    · have hstep := step?_of_cons hrest
      rw [tokens_of_step? hstep]
      intro t ht
      rcases List.mem_cons.mp ht with rfl | ht
      · exact Lexeme.kind_cons_ne_endOfInput _ _
      · exact ih _ (step?_length_lt hstep) rfl t ht

namespace Cursor

/-- The end token is of kind `endOfInput`, and no other token is. -/
structure Terminated (c : Cursor) : Prop where
  eof : c.eof.kind = .endOfInput
  tokens : ∀ t ∈ c.tokens, t.kind ≠ .endOfInput

/-- Among the tokens of a text, the end token alone is of kind `endOfInput`. -/
theorem terminated_ofText (text : String) (file : Option String) :
    (ofText text file).Terminated :=
  ⟨rfl, Scanner.kind_ne_endOfInput⟩

/-- Further on, too, the end token alone is of kind `endOfInput`. -/
theorem Terminated.forward {c : Cursor} (h : c.Terminated) (n : Nat) : (c.forward n).Terminated :=
  ⟨h.eof, fun t ht => h.tokens t (List.mem_of_mem_drop ht)⟩

/-- After a step, too, the end token alone is of kind `endOfInput`. -/
theorem Terminated.advance {c : Cursor} (h : c.Terminated) : c.advance.Terminated :=
  h.forward 1

/-- A reading ends on a cursor of the same text. -/
theorem Terminated.of_follows {α : Type} {r : Outcome α} {c c' : Cursor} {x : Except SyntaxError α}
    (h : c.Terminated) (hr : r.Follows c) (hresult : r = ⟨x, c'⟩) : c'.Terminated := by
  obtain ⟨n, hn⟩ := hr
  rw [hresult] at hn
  rw [show c' = c.forward n from hn]
  exact h.forward n

/-- A cursor is at the end if it stands on a token of kind `endOfInput`. -/
theorem Terminated.atEnd_iff {c : Cursor} (h : c.Terminated) :
    c.atEnd = true ↔ c.current.kind = .endOfInput := by
  obtain ⟨_ | ⟨t, ts⟩, eof, i⟩ := c
  · simpa [atEnd, current] using h.eof
  · simpa [atEnd, current] using h.tokens t (by simp)

/-- A cursor on a token of another kind is not at the end. -/
theorem Terminated.atEnd_eq_false {c : Cursor} (h : c.Terminated) {kind : TokenKind}
    (hkind : c.current.kind = kind) (hne : kind ≠ .endOfInput) : c.atEnd = false := by
  rw [Bool.eq_false_iff, ne_eq, h.atEnd_iff, hkind]
  exact hne

/-- **Skipping to a `;` leaves the tokens from that `;` on.** -/
theorem tokens_skipToSemicolon (c : Cursor) :
    c.skipToSemicolon.tokens = c.tokens.dropWhile (·.kind ≠ .semicolon) := by
  have hdrop : (c.tokens.takeWhile (·.kind ≠ .semicolon) ++
      c.tokens.dropWhile (·.kind ≠ .semicolon)).drop
        (c.tokens.takeWhile (·.kind ≠ .semicolon)).length =
      c.tokens.dropWhile (·.kind ≠ .semicolon) := List.drop_left
  rwa [List.takeWhile_append_dropWhile] at hdrop

/-- **Skipping to a `;` stays where one is, and otherwise goes on from the next token.** -/
theorem skipToSemicolon_eq (c : Cursor) :
    c.skipToSemicolon =
      if c.atEnd ∨ c.current.kind = .semicolon then c else c.advance.skipToSemicolon := by
  obtain ⟨_ | ⟨t, ts⟩, eof, i⟩ := c
  · simp [skipToSemicolon, atEnd]
  · by_cases ht : t.kind = .semicolon
    · simp [skipToSemicolon, current, ht]
    · simp [skipToSemicolon, atEnd, current, ht]

/-- From a semicolon nothing is skipped. -/
theorem skipToSemicolon_of_semicolon {c : Cursor} (h : c.current.kind = .semicolon) :
    c.skipToSemicolon = c := by
  rw [skipToSemicolon_eq, if_pos (.inr h)]

/-- A token that is no semicolon is skipped. -/
theorem skipToSemicolon_of_ne {c : Cursor} (hend : c.atEnd = false)
    (h : c.current.kind ≠ .semicolon) : c.skipToSemicolon = c.advance.skipToSemicolon := by
  rw [skipToSemicolon_eq, if_neg]
  rw [hend, Bool.false_eq_true, false_or]
  exact h

/-! ### Single statements -/

/-- **A binding is read where a name and an `=` follow**, and takes everything up to the next `;`. -/
theorem binding_eq_ok_iff {c c' : Cursor} {s : Stmt} :
    c.binding = ⟨.ok s, c'⟩ ↔
      c.lookahead.kind = .identifier ∧ c.advance.lookahead.kind = .assign ∧
        c' = c.advance.advance.skipToSemicolon ∧
        s = .binding c.current (.ofToken c.lookahead) none
          (c.current.span.upTo c'.current.span) := by
  unfold binding
  constructor
  · intro h
    split at h
    · cases h
    · rename_i c₁ hexpect
      obtain ⟨hname, rfl⟩ := expect_eq_ok_iff.mp hexpect
      split at h
      · cases h
      · rename_i c₂ hexpect'
        obtain ⟨hassign, rfl⟩ := expect_eq_ok_iff.mp hexpect'
        cases h
        exact ⟨hname, hassign, rfl, by rw [current_advance]⟩
  · rintro ⟨hname, hassign, rfl, rfl⟩
    rw [expect_eq_ok_iff.mpr ⟨hname, rfl⟩]
    dsimp only
    rw [expect_eq_ok_iff.mpr ⟨hassign, rfl⟩, current_advance]

/-- **A binding that was not read** fails without its name, or behind it without an `=`. -/
theorem binding_eq_error {c c' : Cursor} {err : SyntaxError} (h : c.binding = ⟨.error err, c'⟩) :
    (c' = c ∧ c.expect .identifier = .error err) ∨
    (c' = c.advance ∧ c.lookahead.kind = .identifier ∧ c.advance.expect .assign = .error err) := by
  unfold binding at h
  split at h
  · rename_i err' hexpect
    cases h
    exact .inl ⟨rfl, hexpect⟩
  · rename_i c₁ hexpect
    obtain ⟨hname, rfl⟩ := expect_eq_ok_iff.mp hexpect
    split at h
    · rename_i err' hexpect'
      cases h
      exact .inr ⟨rfl, hname, hexpect'⟩
    · cases h

/-- Without a name a binding fails where it starts. -/
theorem binding_of_unnamed {c : Cursor} {err : SyntaxError}
    (h : c.expect .identifier = .error err) : c.binding = ⟨.error err, c⟩ := by
  simp only [binding, h]

/-- Without an `=` a binding fails on its name. -/
theorem binding_of_unassigned {c : Cursor} {err : SyntaxError}
    (hname : c.expect .identifier = .ok c.advance) (h : c.advance.expect .assign = .error err) :
    c.binding = ⟨.error err, c.advance⟩ := by
  simp only [binding, hname, h]

/-- A semicolon ahead is passed. -/
theorem passSemicolon_of_semicolon {c : Cursor} (h : c.lookahead.kind = .semicolon) :
    c.passSemicolon = c.advance := by
  rw [passSemicolon, if_pos h]

/-- Nothing else is passed. -/
theorem passSemicolon_of_ne {c : Cursor} (h : c.lookahead.kind ≠ .semicolon) :
    c.passSemicolon = c := by
  rw [passSemicolon, if_neg h]

end Cursor

namespace Grammar

variable {g : Grammar} {c c' : Cursor}

/-- A statement with a keyword is what the rule of the keyword reads. -/
theorem statement_of_rule_ok {rule : StatementRule} {s : Stmt}
    (h : g.statement? c.current.kind = some rule) (hr : ruleStatement rule c = ⟨.ok s, c'⟩) :
    g.statement c = ⟨some s, none, c'⟩ := by
  simp only [statement, h, hr]

/-- A statement with a keyword is dropped where the rule of the keyword fails. -/
theorem statement_of_rule_error {rule : StatementRule} {err : SyntaxError}
    (h : g.statement? c.current.kind = some rule) (hr : ruleStatement rule c = ⟨.error err, c'⟩) :
    g.statement c = ⟨none, some ⟨err, c'⟩, c'⟩ := by
  simp only [statement, h, hr]

/-- A statement without a keyword is an expression, with the semicolon behind it if there is one. -/
theorem statement_of_expression_ok {e : Expr} (h : g.statement? c.current.kind = none)
    (hr : g.expression .lowest c = ⟨.ok e, c'⟩) :
    g.statement c = ⟨some (.expression c.current (some e)
      (c.current.span.upTo c'.passSemicolon.current.span)), none, c'.passSemicolon⟩ := by
  simp only [statement, h, expressionStatement, hr]

/-- A statement without a keyword stays with an empty place if its expression fails, and reaches to
the next semicolon. -/
theorem statement_of_expression_error {err : SyntaxError} (h : g.statement? c.current.kind = none)
    (hr : g.expression .lowest c = ⟨.error err, c'⟩) :
    g.statement c = ⟨some (.expression c.current none
      (c.current.span.upTo c'.skipToSemicolon.current.span)), some ⟨err, c'⟩,
      c'.skipToSemicolon⟩ := by
  simp only [statement, h, expressionStatement, hr]

/-- The statements of the standard grammar that are no expressions. -/
theorem standard_statement?_eq_some {kind : TokenKind} {rule : StatementRule}
    (h : standard.statement? kind = some rule) :
    (kind = .letWord ∧ rule = .binding) ∨ (kind = .returnWord ∧ rule = .returning) := by
  cases kind <;> cases h
  · exact .inl ⟨rfl, rfl⟩
  · exact .inr ⟨rfl, rfl⟩

/-- **A statement that failed** is a binding, which ends where it failed, or an expression, which ends at
the next `;`. -/
theorem standard_statement_failure? {failure : Failure}
    (h : (standard.statement c).failure? = some failure) :
    (c.current.kind = .letWord ∧ c.binding = ⟨.error failure.error, failure.cursor⟩ ∧
      (standard.statement c).cursor = failure.cursor) ∨
    (standard.expression .lowest c = ⟨.error failure.error, failure.cursor⟩ ∧
      (standard.statement c).cursor = failure.cursor.skipToSemicolon) := by
  rcases hrule : standard.statement? c.current.kind with _ | rule
  · rcases hr : standard.expression .lowest c with ⟨err | e, c'⟩
    · rw [statement_of_expression_error hrule hr] at h ⊢
      cases h
      exact .inr ⟨rfl, rfl⟩
    · rw [statement_of_expression_ok hrule hr] at h
      cases h
  · rcases hr : ruleStatement rule c with ⟨err | s, c'⟩
    · rw [statement_of_rule_error hrule hr] at h ⊢
      cases h
      rcases standard_statement?_eq_some hrule with ⟨hkind, rfl⟩ | ⟨hkind, rfl⟩
      · exact .inl ⟨hkind, hr, rfl⟩
      · cases hr
    · rw [statement_of_rule_ok hrule hr] at h
      cases h

/-- After a statement the end of the text is still where it was. -/
theorem terminated_after_statement (hc : c.Terminated) :
    (g.statement c).cursor.advance.Terminated := by
  obtain ⟨n, hn⟩ := g.statement_cursor_eq_forward c
  rw [hn]
  exact (hc.forward n).advance

/-- The next statement starts at a later token. -/
theorem exists_advance_eq_forward (g : Grammar) (c : Cursor) :
    ∃ n, (g.statement c).cursor.advance = c.forward (n + 1) := by
  obtain ⟨n, hn⟩ := g.statement_cursor_eq_forward c
  exact ⟨n, by rw [hn, Cursor.advance, Cursor.forward_forward]⟩

/-- There is no statement at the end. -/
theorem statements_of_atEnd (h : c.atEnd = true) : g.statements c = [] := by
  rw [statements_eq, if_pos h]

/-- Before the end, the statements are the first one and those from the token behind it on. -/
theorem statements_of_not_atEnd (h : c.atEnd = false) :
    g.statements c = g.statement c :: g.statements (g.statement c).cursor.advance := by
  rw [statements_eq, h]
  rfl

/-- **Statement by statement**: what holds where no token is left, and at every statement behind which it
holds, holds everywhere. -/
theorem statements_induction (g : Grammar) {motive : Cursor → Prop}
    (atEnd : ∀ c, c.atEnd = true → motive c)
    (statement : ∀ c, c.atEnd = false → motive (g.statement c).cursor.advance → motive c)
    (c : Cursor) : motive c := by
  generalize hn : c.tokens.length = n
  induction n using Nat.strongRecOn generalizing c with
  | ind n ih =>
    subst hn
    rcases hend : c.atEnd with _ | _
    · exact statement c hend (ih _ (g.length_advance_statement_lt hend) _ rfl)
    · exact atEnd c hend

end Grammar

end Prattle
