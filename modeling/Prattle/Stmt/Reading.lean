import Prattle.Expr.Climb
import Prattle.Stmt.Basic

/-!
# Reading statements

`Grammar.statement g c` reads one statement from the cursor `c` and ends on its last token;
`Grammar.statements` reads one after the other to the end of the text. A `Reading` keeps what was
read together with the failure that was met, if any.

* A binding needs a name and `=`. Without them it is dropped, and reading goes on at the token that
  was found instead.
* The value of a binding or a return is not looked into: everything up to the next `;` belongs to
  it, and its place in the statement stays empty.
* A broken expression leaves a statement with an empty place, and everything up to the next `;` goes
  with it.

So at most one failure is met per statement, and `statements` needs no more readings than there are
tokens (`statements_eq`).
-/

namespace Prattle

/-- An error, and the cursor that stood where it was found out. -/
structure Failure where
  error : SyntaxError
  cursor : Cursor
  deriving DecidableEq, Inhabited

/-- What came of reading one statement: a value, the failure met on the way, and the cursor on the
last token read. -/
structure Reading (α : Type) where
  value : α
  failure? : Option Failure
  cursor : Cursor
  deriving Inhabited

/-! ### One statement -/

namespace Cursor

/-- A name, `=`, and everything up to the next `;`. -/
def binding (c : Cursor) : Outcome Stmt :=
  match c.expect .identifier with
  | .error e => ⟨.error e, c⟩
  | .ok c₁ =>
    match c₁.expect .assign with
    | .error e => ⟨.error e, c₁⟩
    | .ok c₂ =>
      let c₃ := c₂.skipToSemicolon
      ⟨.ok (.binding c.current (.ofToken c₁.current) none (c.current.span.upTo c₃.current.span)),
        c₃⟩

/-- Everything up to the next `;`. -/
def returning (c : Cursor) : Outcome Stmt :=
  let c₁ := c.advance.skipToSemicolon
  ⟨.ok (.returning c.current none (c.current.span.upTo c₁.current.span)), c₁⟩

/-- The cursor on the `;` ahead, if there is one. -/
def passSemicolon (c : Cursor) : Cursor :=
  if c.lookahead.kind = .semicolon then c.advance else c

end Cursor

namespace Grammar

/-- A statement that is an expression, with the `;` after it if there is one. -/
def expressionStatement (g : Grammar) (c : Cursor) : Reading Stmt :=
  match g.expression .lowest c with
  | ⟨.ok e, c₁⟩ =>
    let c₂ := c₁.passSemicolon
    ⟨.expression c.current (some e) (c.current.span.upTo c₂.current.span), none, c₂⟩
  | ⟨.error err, c₁⟩ =>
    let c₂ := c₁.skipToSemicolon
    ⟨.expression c.current none (c.current.span.upTo c₂.current.span), some ⟨err, c₁⟩, c₂⟩

/-- A statement that is read by a rule of its own. -/
def ruleStatement (rule : StatementRule) (c : Cursor) : Outcome Stmt :=
  match rule with
  | .binding => c.binding
  | .returning => c.returning

/-- The statement that starts at the current token, unless it had to be dropped. -/
def statement (g : Grammar) (c : Cursor) : Reading (Option Stmt) :=
  match g.statement? c.current.kind with
  | some rule =>
    match ruleStatement rule c with
    | ⟨.ok s, c₁⟩ => ⟨some s, none, c₁⟩
    | ⟨.error e, c₁⟩ => ⟨none, some ⟨e, c₁⟩, c₁⟩
  | none =>
    let r := g.expressionStatement c
    ⟨some r.value, r.failure?, r.cursor⟩

/-! ### All statements -/

/-- The next `n` statements, fewer if the text ends before. -/
def statementsUpTo (g : Grammar) : Nat → Cursor → List (Reading (Option Stmt))
  | 0, _ => []
  | n + 1, c =>
    if c.atEnd then []
    else
      let r := g.statement c
      r :: g.statementsUpTo n r.cursor.advance

/-- The statements from the current token to the end of the text. -/
def statements (g : Grammar) (c : Cursor) : List (Reading (Option Stmt)) :=
  g.statementsUpTo c.tokens.length c

/-! ### Reading moves forward -/

/-- The rule of a keyword never moves back. -/
theorem follows_ruleStatement (rule : StatementRule) (c : Cursor) :
    (ruleStatement rule c).Follows c := by
  cases rule with
  | binding =>
    unfold ruleStatement Cursor.binding
    dsimp only
    split
    · exact .here _ c
    · rename_i c₁ h₁
      have h₁ : c₁ = c.advance := (Cursor.expect_eq_ok_iff.mp h₁).2
      subst h₁
      refine .of_advance ?_
      split
      · exact .here _ _
      · rename_i c₂ h₂
        have h₂ : c₂ = c.advance.advance := (Cursor.expect_eq_ok_iff.mp h₂).2
        subst h₂
        exact .of_advance ⟨_, rfl⟩
  | returning => exact .of_advance ⟨_, rfl⟩

/-- Passing a semicolon goes some steps forward. -/
theorem passSemicolon_eq_forward (c : Cursor) : ∃ n, c.passSemicolon = c.forward n := by
  unfold Cursor.passSemicolon
  split
  · exact ⟨1, rfl⟩
  · exact ⟨0, by simp⟩

/-- An expression statement ends some steps further on. -/
theorem expressionStatement_cursor_eq_forward (g : Grammar) (c : Cursor) :
    ∃ n, (g.expressionStatement c).cursor = c.forward n := by
  obtain ⟨n, hn⟩ := g.follows_expression .lowest c
  unfold expressionStatement
  split
  · rename_i e c₁ h
    rw [h] at hn
    obtain ⟨m, hm⟩ := passSemicolon_eq_forward c₁
    exact ⟨n + m, by simp only at hn ⊢; rw [hm, hn, Cursor.forward_forward]⟩
  · rename_i err c₁ h
    rw [h] at hn
    exact ⟨n + _, by simp only at hn ⊢; rw [Cursor.skipToSemicolon, hn, Cursor.forward_forward]⟩

/-- **Reading a statement never moves back.** -/
theorem statement_cursor_eq_forward (g : Grammar) (c : Cursor) :
    ∃ n, (g.statement c).cursor = c.forward n := by
  unfold statement
  split
  · rename_i rule _
    obtain ⟨n, hn⟩ := follows_ruleStatement rule c
    split <;> (rename_i h; rw [h] at hn; exact ⟨n, hn⟩)
  · exact g.expressionStatement_cursor_eq_forward c

/-- **A statement with the token behind it leaves fewer tokens than before.** -/
theorem length_advance_statement_lt (g : Grammar) {c : Cursor} (h : c.atEnd = false) :
    (g.statement c).cursor.advance.tokens.length < c.tokens.length := by
  obtain ⟨n, hn⟩ := g.statement_cursor_eq_forward c
  have : 0 < c.tokens.length := List.length_pos_iff.mpr (by simpa [Cursor.atEnd] using h)
  simp only [hn, Cursor.tokens_advance, Cursor.tokens_forward, List.length_tail, List.length_drop]
  omega

/-- The count of statements does not matter once it is no less than the number of tokens left. -/
theorem statementsUpTo_eq_statements (g : Grammar) {n : Nat} {c : Cursor}
    (h : c.tokens.length ≤ n) : g.statementsUpTo n c = g.statements c := by
  have key : ∀ (n m : Nat) (c : Cursor), c.tokens.length ≤ n → c.tokens.length ≤ m →
      g.statementsUpTo n c = g.statementsUpTo m c := by
    intro n
    induction n with
    | zero =>
      intro m c hn _
      have : c.atEnd = true := by
        simp [Cursor.atEnd, List.eq_nil_of_length_eq_zero (show c.tokens.length = 0 by omega)]
      cases m <;> simp [statementsUpTo, this]
    | succ n ih =>
      intro m c hn hm
      cases hc : c.atEnd with
      | true => cases m <;> simp [statementsUpTo, hc]
      | false =>
        have hlt := g.length_advance_statement_lt hc
        cases m with
        | zero => omega
        | succ m =>
          simp only [statementsUpTo, hc]
          rw [ih m _ (by omega) (by omega)]
  exact key n c.tokens.length c h (Nat.le_refl _)

/-- **The statements of a text are the first one, and those after its last token.** -/
theorem statements_eq (g : Grammar) (c : Cursor) :
    g.statements c =
      if c.atEnd then [] else g.statement c :: g.statements (g.statement c).cursor.advance := by
  rw [← g.statementsUpTo_eq_statements (Nat.le_succ c.tokens.length), statementsUpTo]
  cases hc : c.atEnd with
  | true => rfl
  | false =>
    have hlt := g.length_advance_statement_lt hc
    simp only [Bool.false_eq_true, if_false]
    rw [g.statementsUpTo_eq_statements (by omega)]

end Grammar

end Prattle
