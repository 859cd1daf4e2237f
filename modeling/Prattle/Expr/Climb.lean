import Prattle.Expr.Basic
import Prattle.Grammar
import Prattle.Numeral
import Prattle.Token.Cursor

/-!
# Reading expressions by precedence climbing

`Grammar.expression g bp c` reads from the cursor `c` the longest expression whose outermost
operators all bind more strongly than `bp`, and ends on its last token. It reads one operand and
then, as long as the token ahead is a binary operator that binds strongly enough, takes that
operator with its right operand and makes what was read so far its left operand
(`Grammar.climb`). A right operand is read with the power of its operator, so operators of one
power group to the left.

* **The defining equations** are `expression_eq` and `climb_eq`; they hold for every grammar.
  Behind them stands a count that goes down with every nested expression and every operator, and
  starts at the number of tokens left.
* **Reading never moves back** (`follows_expression`, `follows_climb`).
-/

namespace Prattle

/-- The error of a token that starts no operand. -/
def Token.noOperand (t : Token) : SyntaxError :=
  ⟨.noOperand t.kind, t.span.start⟩

/-- The operand that a single token is. -/
def Token.primary (t : Token) : Except SyntaxError Expr :=
  match t.kind with
  | .integer =>
    match Numeral.value? t.text with
    | some value => .ok (.integer t value t.span)
    | none => .error ⟨.badNumeral t.text, t.span.start⟩
  | .identifier => .ok (.identifier (.ofToken t))
  | .trueWord => .ok (.boolean t true t.span)
  | .falseWord => .ok (.boolean t false t.span)
  | _ => .error t.noOperand

namespace Grammar

/-! ### The parts of an expression

Each part is given the reading of the expressions inside it. -/

section parts

variable (g : Grammar) (inner : BindingPower → Cursor → Outcome Expr)

/-- The current token as an operand. -/
def primary (c : Cursor) : Outcome Expr :=
  ⟨c.current.primary, c⟩

/-- A unary operator and its operand. -/
def prefixed (c : Cursor) : Outcome Expr :=
  match UnaryOp.ofKind? c.current.kind with
  | none => ⟨.error c.current.noOperand, c⟩
  | some op =>
    (inner .unary c.advance).andThen fun e c' =>
      ⟨.ok (.unary c.current op e (c.current.span.upTo e.span)), c'⟩

/-- An expression between the current token and a `)`. -/
def grouped (c : Cursor) : Outcome Expr :=
  (inner .lowest c.advance).andThen fun e c' =>
    match c'.expect .rightParen with
    | .ok c'' => ⟨.ok e, c''⟩
    | .error err => ⟨.error err, c'⟩

/-- The operand that starts at the current token, by the rule for its kind. -/
def operand (c : Cursor) : Outcome Expr :=
  match g.operand? c.current.kind with
  | none => ⟨.error c.current.noOperand, c⟩
  | some .primary => primary c
  | some .prefixed => prefixed inner c
  | some .grouped => grouped inner c

/-- The right operand of the operator under the cursor, and the operation that it completes. -/
def operation (op : BinaryOp) (left : Expr) (c : Cursor) : Outcome Expr :=
  (inner (g.power c.current.kind) c.advance).andThen fun right c' =>
    ⟨.ok (.binary c.current op left right (left.span.upTo right.span)), c'⟩

/-- The operator ahead, if there is one that binds more strongly than `bp`. A `;` ahead ends the
expression in every grammar. -/
def operatorAhead? (bp : BindingPower) (c : Cursor) : Option BinaryOp :=
  if c.advance.atEnd = false ∧ c.lookahead.kind ≠ .semicolon ∧ bp < g.power c.lookahead.kind then
    g.operator? c.lookahead.kind
  else none

/-- At most `n` operators that bind more strongly than `bp`, with their right operands. -/
def climbUpTo (bp : BindingPower) : Nat → Expr → Cursor → Outcome Expr
  | 0, left, c => ⟨.ok left, c⟩
  | n + 1, left, c =>
    match g.operatorAhead? bp c with
    | none => ⟨.ok left, c⟩
    | some op => (g.operation inner op left c.advance).andThen (climbUpTo bp n)

end parts

/-! ### Expressions -/

/-- An expression in which at most `depth` expressions are nested, counting itself. At the end of
the text there is none. -/
def expressionWithin (g : Grammar) : Nat → BindingPower → Cursor → Outcome Expr
  | 0, _, c => ⟨.error c.current.noOperand, c⟩
  | depth + 1, bp, c =>
    if c.atEnd then ⟨.error c.current.noOperand, c⟩
    else
      (g.operand (g.expressionWithin depth) c).andThen fun left c' =>
        g.climbUpTo (g.expressionWithin depth) bp c'.tokens.length left c'

/-- The longest expression from the current token on whose outermost operators bind more strongly
than `bp`. A nested expression starts at a later token, so the tokens left bound the nesting. -/
def expression (g : Grammar) (bp : BindingPower) (c : Cursor) : Outcome Expr :=
  g.expressionWithin c.tokens.length bp c

/-- The expression that `left` grows into with the operators ahead that bind more strongly than
`bp`. -/
def climb (g : Grammar) (bp : BindingPower) (left : Expr) (c : Cursor) : Outcome Expr :=
  g.climbUpTo g.expression bp c.tokens.length left c

/-! ### Reading moves forward -/

section follows

variable {g : Grammar} {inner : BindingPower → Cursor → Outcome Expr}
  (hinner : ∀ bp c, (inner bp c).Follows c)
include hinner

/-- An operator with its operand never moves back. -/
theorem follows_prefixed (c : Cursor) : (prefixed inner c).Follows c := by
  unfold prefixed
  split
  · exact .here _ c
  · exact .of_advance (.andThen (hinner _ _) fun _ c' => .here _ c')

/-- An expression between parentheses never moves back. -/
theorem follows_grouped (c : Cursor) : (grouped inner c).Follows c := by
  refine .of_advance (.andThen (hinner _ _) fun e c' => ?_)
  split
  · rename_i c'' h
    exact ⟨1, (Cursor.expect_eq_ok_iff.mp h).2⟩
  · exact .here _ c'

/-- An operand never moves back. -/
theorem follows_operand (c : Cursor) : (g.operand inner c).Follows c := by
  unfold operand
  split
  · exact .here _ c
  · exact .here _ c
  · exact follows_prefixed hinner c
  · exact follows_grouped hinner c

/-- An operator with its right operand never moves back. -/
theorem follows_operation (op : BinaryOp) (left : Expr) (c : Cursor) :
    (g.operation inner op left c).Follows c :=
  .of_advance (.andThen (hinner _ _) fun _ c' => .here _ c')

/-- A counted climb never moves back. -/
theorem follows_climbUpTo (bp : BindingPower) (n : Nat) (left : Expr) (c : Cursor) :
    (g.climbUpTo inner bp n left c).Follows c := by
  induction n generalizing left c with
  | zero => exact .here _ c
  | succ n ih =>
    unfold climbUpTo
    split
    · exact .here _ c
    · exact .of_advance (.andThen (follows_operation hinner _ _ _) ih)

end follows

/-- An expression of bounded nesting never moves back. -/
theorem follows_expressionWithin (g : Grammar) (depth : Nat) (bp : BindingPower) (c : Cursor) :
    (g.expressionWithin depth bp c).Follows c := by
  induction depth generalizing bp c with
  | zero => exact .here _ c
  | succ depth ih =>
    unfold expressionWithin
    split
    · exact .here _ c
    · exact .andThen (follows_operand ih c) fun left c' => follows_climbUpTo ih bp _ left c'

/-- **Reading an expression never moves back.** -/
theorem follows_expression (g : Grammar) (bp : BindingPower) (c : Cursor) :
    (g.expression bp c).Follows c :=
  g.follows_expressionWithin _ bp c

/-- A climb never moves back. -/
theorem follows_climb (g : Grammar) (bp : BindingPower) (left : Expr) (c : Cursor) :
    (g.climb bp left c).Follows c :=
  follows_climbUpTo g.follows_expression bp _ left c

/-! ### The count does not matter

What an expression is depends only on readings of expressions that start later, so two ways of
reading those that agree there give the same expression. -/

section congr

variable {g : Grammar} {inner inner' : BindingPower → Cursor → Outcome Expr}

/-- An operand reads inner expressions only where fewer tokens are left. -/
theorem operand_congr {c : Cursor} (hc : c.atEnd = false)
    (h : ∀ bp c', c'.tokens.length < c.tokens.length → inner bp c' = inner' bp c') :
    g.operand inner c = g.operand inner' c := by
  have hlt : c.advance.tokens.length < c.tokens.length := by
    have : c.tokens ≠ [] := by simpa [Cursor.atEnd] using hc
    have := List.length_pos_iff.mpr this
    simp only [Cursor.tokens_advance, List.length_tail]
    omega
  simp only [operand, prefixed, grouped, h _ _ hlt]

/-- The right side of an operator is an expression where fewer tokens are left. -/
theorem operation_congr {c : Cursor} (hc : c.atEnd = false)
    (h : ∀ bp c', c'.tokens.length < c.tokens.length → inner bp c' = inner' bp c')
    (op : BinaryOp) (left : Expr) : g.operation inner op left c = g.operation inner' op left c := by
  have hlt : c.advance.tokens.length < c.tokens.length := by
    have : c.tokens ≠ [] := by simpa [Cursor.atEnd] using hc
    have := List.length_pos_iff.mpr this
    simp only [Cursor.tokens_advance, List.length_tail]
    omega
  simp only [operation, h _ _ hlt]

/-- An operator ahead is a token, so one step does not lead to the end. -/
theorem atEnd_of_operatorAhead? {bp : BindingPower} {c : Cursor} {op : BinaryOp}
    (h : g.operatorAhead? bp c = some op) : c.advance.atEnd = false := by
  unfold operatorAhead? at h
  split at h
  · rename_i hc
    exact hc.1
  · simp at h

/-- A step onto a token leaves fewer tokens than before. -/
theorem length_advance_lt {c : Cursor} (h : c.advance.atEnd = false) :
    c.advance.tokens.length < c.tokens.length := by
  have : c.tokens.tail ≠ [] := by simpa [Cursor.atEnd] using h
  have := List.length_pos_iff.mpr this
  simp only [Cursor.tokens_advance, List.length_tail] at this ⊢
  omega

/-- The count of a climb does not matter once it is no less than the number of tokens left, and
inner expressions matter only where fewer tokens are left. -/
theorem climbUpTo_congr (hinner : ∀ bp c, (inner bp c).Follows c) (bp : BindingPower) {m n : Nat}
    {c : Cursor} (hm : c.tokens.length ≤ m) (hn : c.tokens.length ≤ n)
    (h : ∀ bp c', c'.tokens.length < c.tokens.length → inner bp c' = inner' bp c')
    (left : Expr) : g.climbUpTo inner bp m left c = g.climbUpTo inner' bp n left c := by
  induction m generalizing n left c with
  | zero =>
    have hnone : g.operatorAhead? bp c = none := by
      have : c.tokens = [] := List.eq_nil_of_length_eq_zero (by omega)
      simp [operatorAhead?, Cursor.atEnd, this]
    cases n <;> simp [climbUpTo, hnone]
  | succ m ih =>
    cases hop : g.operatorAhead? bp c with
    | none => cases n <;> simp [climbUpTo, hop]
    | some op =>
      have hahead := atEnd_of_operatorAhead? hop
      have hlt := length_advance_lt hahead
      cases n with
      | zero => omega
      | succ n =>
        simp only [climbUpTo, hop]
        rw [operation_congr hahead fun bp c' hc' => h bp c' (by omega)]
        refine Outcome.andThen_congr fun e _ => ?_
        have hle := (follows_operation (g := g) hinner op left c.advance).length_le
        rw [operation_congr hahead fun bp c' hc' => h bp c' (by omega)] at hle
        exact ih (by omega) (by omega) (fun bp c' hc' => h bp c' (by omega)) e

end congr

/-- The bound on the nesting does not matter once it is no less than the number of tokens left. -/
theorem expressionWithin_congr (g : Grammar) {d d' : Nat} (bp : BindingPower) {c : Cursor}
    (hd : c.tokens.length ≤ d) (hd' : c.tokens.length ≤ d') :
    g.expressionWithin d bp c = g.expressionWithin d' bp c := by
  induction d generalizing d' bp c with
  | zero =>
    have : c.atEnd = true := by
      simp [Cursor.atEnd, List.eq_nil_of_length_eq_zero (show c.tokens.length = 0 by omega)]
    cases d' <;> simp [expressionWithin, this]
  | succ d ih =>
    cases hc : c.atEnd with
    | true => cases d' <;> simp [expressionWithin, hc]
    | false =>
      cases d' with
      | zero =>
        have : c.tokens ≠ [] := by simpa [Cursor.atEnd] using hc
        exact absurd (List.eq_nil_of_length_eq_zero (by omega)) this
      | succ d' =>
        have hagree : ∀ bp c', c'.tokens.length < c.tokens.length →
            g.expressionWithin d bp c' = g.expressionWithin d' bp c' :=
          fun bp c' h => ih bp (by omega) (by omega)
        simp only [expressionWithin, hc]
        rw [operand_congr hc hagree]
        refine Outcome.andThen_congr fun left _ => ?_
        have hle := (follows_operand (g := g) (g.follows_expressionWithin d') c).length_le
        exact climbUpTo_congr (g.follows_expressionWithin d) bp (Nat.le_refl _) (Nat.le_refl _)
          (fun bp c' h => hagree bp c' (by omega)) left

/-- Allowing more nesting than there are tokens left changes nothing. -/
theorem expressionWithin_eq_expression (g : Grammar) {depth : Nat} (bp : BindingPower) {c : Cursor}
    (h : c.tokens.length ≤ depth) : g.expressionWithin depth bp c = g.expression bp c :=
  g.expressionWithin_congr bp h (Nat.le_refl _)

/-- **An expression is an operand that grows with the operators ahead.** -/
theorem expression_eq (g : Grammar) (bp : BindingPower) (c : Cursor) :
    g.expression bp c =
      if c.atEnd then ⟨.error c.current.noOperand, c⟩
      else (g.operand g.expression c).andThen (g.climb bp) := by
  have hagree : ∀ bp c', c'.tokens.length < c.tokens.length →
      g.expressionWithin c.tokens.length bp c' = g.expression bp c' :=
    fun bp c' h => g.expressionWithin_eq_expression bp (by omega)
  rw [← g.expressionWithin_eq_expression bp (Nat.le_succ c.tokens.length), expressionWithin]
  cases hc : c.atEnd with
  | true => rfl
  | false =>
    simp only [Bool.false_eq_true, if_false]
    rw [operand_congr hc hagree]
    refine Outcome.andThen_congr fun left _ => ?_
    have hle := (follows_operand (g := g) g.follows_expression c).length_le
    exact climbUpTo_congr (g.follows_expressionWithin _) bp (Nat.le_refl _) (Nat.le_refl _)
      (fun bp c' h => hagree bp c' (by omega)) left

/-- **An expression that was read grows with the first operator ahead, then with the next.** -/
theorem climb_eq (g : Grammar) (bp : BindingPower) (left : Expr) (c : Cursor) :
    g.climb bp left c =
      match g.operatorAhead? bp c with
      | none => ⟨.ok left, c⟩
      | some op => (g.operation g.expression op left c.advance).andThen (g.climb bp) := by
  have hcount : g.climb bp left c = g.climbUpTo g.expression bp (c.tokens.length + 1) left c :=
    climbUpTo_congr g.follows_expression bp (Nat.le_refl _) (Nat.le_succ _) (fun _ _ _ => rfl) left
  rw [hcount, climbUpTo]
  cases hop : g.operatorAhead? bp c with
  | none => rfl
  | some op =>
    refine Outcome.andThen_congr fun e _ => ?_
    have hlt := length_advance_lt (atEnd_of_operatorAhead? hop)
    have hle := (follows_operation (g := g) g.follows_expression op left c.advance).length_le
    exact climbUpTo_congr g.follows_expression bp (by omega) (Nat.le_refl _) (fun _ _ _ => rfl) e

end Grammar

end Prattle
