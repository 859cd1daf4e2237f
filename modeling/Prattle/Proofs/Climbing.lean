import Prattle.Proofs.Readings

/-!
# What reading an expression can do

`Grammar.expression` reads one operand and climbs. Here both are taken apart once, so that what is
said about all readings of expressions needs no counts and no unfolding.

* **A climb** stops, fails in an operation, or goes on from an operation (`climb_induction`), and
  where it succeeds no operator ahead binds more strongly (`operatorAhead?_of_climb`).
* **An operand that was read** is one token, a unary operation or a group
  (`operand_eq_ok`); **an operation that was read** has a right operand (`operation_eq_ok_iff`).
  `operand_eq_error` and `operation_eq_error` say where one that was not read fails.
* **How far a reading looks** (`Outcome.last`): to the token that an error is blamed on, and otherwise
  to the first one that does not belong to what was read.
* In the standard grammar the operator ahead is decided by its own power
  (`standard_operatorAhead?_eq_some_iff`), and nothing binds more strongly than a product
  (`standard_climb_of_product_le`).
-/

namespace Prattle

/-- Two readings in a row succeed if the first does and then the second, from where the first ended.
-/
theorem Outcome.andThen_eq_ok_iff {α β : Type} {first : Outcome α}
    {next : α → Cursor → Outcome β} {b : β} {c : Cursor} :
    first.andThen next = ⟨.ok b, c⟩ ↔
      ∃ a c', first = ⟨.ok a, c'⟩ ∧ next a c' = ⟨.ok b, c⟩ := by
  obtain ⟨_ | a, c'⟩ := first
  · simp
  · constructor
    · intro h
      exact ⟨a, c', rfl, h⟩
    · rintro ⟨a', c'', h, hnext⟩
      cases h
      exact hnext

/-- Two readings in a row fail if the first fails, or if it succeeds and the second fails. -/
theorem Outcome.andThen_eq_error_iff {α β : Type} {first : Outcome α}
    {next : α → Cursor → Outcome β} {err : SyntaxError} {c : Cursor} :
    first.andThen next = ⟨.error err, c⟩ ↔
      first = ⟨.error err, c⟩ ∨ ∃ a c', first = ⟨.ok a, c'⟩ ∧ next a c' = ⟨.error err, c⟩ := by
  obtain ⟨_ | a, c'⟩ := first
  · simp
  · constructor
    · intro h
      exact .inr ⟨a, c', rfl, h⟩
    · rintro (h | ⟨a', c'', h, hnext⟩)
      · cases h
      · cases h
        exact hnext

/-- Readings in a row can be grouped either way. -/
theorem Outcome.andThen_assoc {α β γ : Type} (first : Outcome α) (f : α → Cursor → Outcome β)
    (g : β → Cursor → Outcome γ) :
    (first.andThen f).andThen g = first.andThen fun a c => (f a c).andThen g := by
  obtain ⟨_ | a, c⟩ := first
  · rfl
  · rfl

namespace Cursor

/-- A step leaves no more tokens than before. -/
theorem length_advance_le (c : Cursor) : c.advance.tokens.length ≤ c.tokens.length := by
  simp

/-- Before the end, the tokens are the current one and those that a step leaves. -/
theorem tokens_of_not_atEnd {c : Cursor} (h : c.atEnd = false) :
    c.tokens = c.current :: c.advance.tokens := by
  obtain ⟨_ | ⟨t, ts⟩, eof, i⟩ := c
  · simp [atEnd] at h
  · simp [current]

/-- The current token is the first one. -/
theorem current_of_tokens {c : Cursor} {t : Token} {ts : List Token} (h : c.tokens = t :: ts) :
    c.current = t := by
  rw [current, h]
  rfl

/-- A step leaves the tokens behind the first one. -/
theorem tokens_advance_of_tokens {c : Cursor} {t : Token} {ts : List Token}
    (h : c.tokens = t :: ts) : c.advance.tokens = ts := by
  rw [tokens_advance, h]
  rfl

/-- Where there is a token, it is not the end. -/
theorem atEnd_of_tokens {c : Cursor} {t : Token} {ts : List Token} (h : c.tokens = t :: ts) :
    c.atEnd = false := by
  rw [atEnd, h]
  rfl

/-- A step from a token leaves fewer tokens than before. -/
theorem length_advance_lt_of_not_atEnd {c : Cursor} (h : c.atEnd = false) :
    c.advance.tokens.length < c.tokens.length := by
  obtain ⟨_ | ⟨t, ts⟩, eof, i⟩ := c
  · simp [atEnd] at h
  · simp

end Cursor

/-! ### How far a reading looks -/

/-- How many steps ahead the token stands that an error is blamed on. -/
def Cause.ahead : Cause → Nat
  | .unexpected .. => 1
  | .noOperand .. | .badNumeral .. => 0

/-- The cursor on the token that a failure is blamed on. -/
def Failure.last (failure : Failure) : Cursor :=
  failure.cursor.forward failure.error.cause.ahead

/-- The cursor on the furthest token that the reading of an expression looked at: the one that it is
blamed on if it failed, and otherwise the first one that does not belong to it. -/
def Outcome.last (r : Outcome Expr) : Cursor :=
  match r.result with
  | .ok _ => r.cursor.advance
  | .error err => r.cursor.forward err.cause.ahead

/-- The cursor on the token that the reading of a statement is blamed on if it failed, and otherwise on
the first one behind it. -/
def Reading.last (r : Reading (Option Stmt)) : Cursor :=
  match r.failure? with
  | none => r.cursor.advance
  | some failure => failure.last

/-- The last token that a reading asked for is not behind where it ended. -/
theorem Outcome.exists_last_eq_forward (r : Outcome Expr) : ∃ n, r.last = r.cursor.forward n := by
  obtain ⟨_ | _, c⟩ := r
  · exact ⟨_, rfl⟩
  · exact ⟨1, rfl⟩

/-- An expected token is missed at the token ahead, with both kinds in the error. -/
theorem Cursor.expect_eq_error {c : Cursor} {kind : TokenKind} {err : SyntaxError}
    (h : c.expect kind = .error err) :
    err = ⟨.unexpected kind c.lookahead.kind, c.lookahead.span.start⟩ := by
  unfold expect at h
  split at h
  · cases h
  · cases h
    rfl

/-- A token that was expected and not found is blamed itself. -/
theorem Cursor.blamed_of_expect {c : Cursor} {kind : TokenKind} {err : SyntaxError}
    (h : c.expect kind = .error err) :
    err.cause.ahead = 1 ∧ err.position = c.advance.current.span.start := by
  rw [current_advance, expect_eq_error h]
  exact ⟨rfl, rfl⟩

/-- **A token that is an operand** is an integer with a value, a name or a truth value. -/
theorem Token.primary_eq_ok {t : Token} {e : Expr} (h : t.primary = .ok e) :
    (∃ v, t.kind = .integer ∧ Numeral.value? t.text = some v ∧ e = .integer t v t.span) ∨
    (t.kind = .identifier ∧ e = .identifier (.ofToken t)) ∨
    (t.kind = .trueWord ∧ e = .boolean t true t.span) ∨
    (t.kind = .falseWord ∧ e = .boolean t false t.span) := by
  unfold primary at h
  split at h
  · rename_i hkind
    split at h
    · rename_i v hvalue
      cases h
      exact .inl ⟨v, hkind, hvalue, rfl⟩
    · cases h
  · cases h
    exact .inr (.inl ⟨‹_›, rfl⟩)
  · cases h
    exact .inr (.inr (.inl ⟨‹_›, rfl⟩))
  · cases h
    exact .inr (.inr (.inr ⟨‹_›, rfl⟩))
  · cases h

/-- **A token that is no operand** is of a kind that is none, or an integer without a value. -/
theorem Token.primary_eq_error {t : Token} {err : SyntaxError} (h : t.primary = .error err) :
    err = t.noOperand ∨ (t.kind = .integer ∧ err = ⟨.badNumeral t.text, t.span.start⟩) := by
  unfold primary at h
  split at h
  · rename_i hkind
    split at h
    · cases h
    · cases h
      exact .inr ⟨hkind, rfl⟩
  · cases h
  · cases h
  · cases h
  · cases h
    exact .inl rfl

namespace Grammar

/-! ### Climbing -/

section climbing

variable {g : Grammar} {bp : BindingPower}

/-- An expression ends among the tokens of its text. -/
theorem terminated_of_expression {c c' : Cursor} {x : Except SyntaxError Expr}
    (hc : c.Terminated) (h : g.expression bp c = ⟨x, c'⟩) : c'.Terminated :=
  hc.of_follows (g.follows_expression bp c) h

/-- An operand ends among the tokens of its text. -/
theorem terminated_of_operand {c c' : Cursor} {x : Except SyntaxError Expr}
    (hc : c.Terminated) (h : g.operand g.expression c = ⟨x, c'⟩) : c'.Terminated :=
  hc.of_follows (follows_operand g.follows_expression c) h

/-- An operator with its right operand ends among the tokens of its text. -/
theorem terminated_of_operation {c c' : Cursor} {op : BinaryOp} {left : Expr}
    {x : Except SyntaxError Expr} (hc : c.Terminated)
    (h : g.operation g.expression op left c = ⟨x, c'⟩) : c'.Terminated :=
  hc.of_follows (follows_operation g.follows_expression op left c) h

/-- An operand leaves no more tokens than before. -/
theorem length_operand_le {c : Cursor} {r : Outcome Expr} (h : g.operand g.expression c = r) :
    r.cursor.tokens.length ≤ c.tokens.length := by
  rw [← h]
  exact (follows_operand g.follows_expression c).length_le

/-- A climb ends where no operator that binds strongly enough is ahead. -/
theorem climb_of_none {left : Expr} {c : Cursor} (h : g.operatorAhead? bp c = none) :
    g.climb bp left c = ⟨.ok left, c⟩ := by
  rw [climb_eq, h]

/-- A climb takes the operator ahead with its right operand, and goes on from there. -/
theorem climb_of_some {left : Expr} {c : Cursor} {op : BinaryOp}
    (h : g.operatorAhead? bp c = some op) :
    g.climb bp left c =
      (g.operation g.expression op left c.advance).andThen (g.climb bp) := by
  rw [climb_eq, h]

/-- What the token ahead is as an operator is what the grammar says of its kind. -/
theorem operator?_of_operatorAhead? {c : Cursor} {op : BinaryOp}
    (h : g.operatorAhead? bp c = some op) : g.operator? c.lookahead.kind = some op := by
  unfold operatorAhead? at h
  split at h
  · exact h
  · cases h

/-- An operator with its right operand leaves fewer tokens than before. -/
theorem length_operation_lt {c : Cursor} {op : BinaryOp} {left : Expr} {r : Outcome Expr}
    (hop : g.operatorAhead? bp c = some op)
    (h : g.operation g.expression op left c.advance = r) :
    r.cursor.tokens.length < c.tokens.length := by
  have hlt := length_advance_lt (atEnd_of_operatorAhead? hop)
  have hle := (follows_operation (g := g) g.follows_expression op left c.advance).length_le
  rw [h] at hle
  omega

/-- **A climb stops, fails in an operation, or goes on from an operation.** -/
theorem climb_induction {motive : Expr → Cursor → Outcome Expr → Prop}
    (stop : ∀ left c, g.operatorAhead? bp c = none → motive left c ⟨.ok left, c⟩)
    (fail : ∀ left c op err c', g.operatorAhead? bp c = some op →
      g.operation g.expression op left c.advance = ⟨.error err, c'⟩ →
      motive left c ⟨.error err, c'⟩)
    (step : ∀ left c op e c', g.operatorAhead? bp c = some op →
      g.operation g.expression op left c.advance = ⟨.ok e, c'⟩ →
      motive e c' (g.climb bp e c') → motive left c (g.climb bp e c'))
    (left : Expr) (c : Cursor) : motive left c (g.climb bp left c) := by
  generalize hn : c.tokens.length = n
  induction n using Nat.strongRecOn generalizing left c with
  | ind n ih =>
    subst hn
    rcases hop : g.operatorAhead? bp c with _ | op
    · rw [climb_of_none hop]
      exact stop left c hop
    · rw [climb_of_some hop]
      rcases hr : g.operation g.expression op left c.advance with ⟨err | e, c'⟩
      · exact fail left c op err c' hop hr
      · have hlt : c'.tokens.length < c.tokens.length := length_operation_lt hop hr
        exact step left c op e c' hop hr (ih _ hlt e c' rfl)

/-- **Where a climb succeeds, no operator ahead binds more strongly than it asks.** -/
theorem operatorAhead?_of_climb {left e : Expr} {c c' : Cursor}
    (h : g.climb bp left c = ⟨.ok e, c'⟩) : g.operatorAhead? bp c' = none := by
  revert h
  refine climb_induction (motive := fun _ _ r => r = ⟨.ok e, c'⟩ → g.operatorAhead? bp c' = none)
    ?_ ?_ ?_ left c
  · rintro left c hop ⟨⟩
    exact hop
  · rintro left c op err c'' hop hr ⟨⟩
  · intro left c op e' c'' hop hr ih
    exact ih

/-- There is no expression at the end, and the error says that an operand is missing. -/
theorem expression_of_atEnd {c : Cursor} (h : c.atEnd = true) :
    g.expression bp c = ⟨.error c.current.noOperand, c⟩ := by
  rw [expression_eq, if_pos h]

/-- Before the end, an expression is an operand and the climb behind it. -/
theorem expression_of_not_atEnd {c : Cursor} (h : c.atEnd = false) :
    g.expression bp c = (g.operand g.expression c).andThen (g.climb bp) := by
  rw [expression_eq, h]
  rfl

/-- An expression that was read starts with an operand that was read, and climbs from there. -/
theorem expression_eq_ok {e : Expr} {c c' : Cursor} (h : g.expression bp c = ⟨.ok e, c'⟩) :
    c.atEnd = false ∧ ∃ left c₁, g.operand g.expression c = ⟨.ok left, c₁⟩ ∧
      g.climb bp left c₁ = ⟨.ok e, c'⟩ := by
  rcases hend : c.atEnd with _ | _
  · rw [expression_of_not_atEnd hend] at h
    exact ⟨rfl, Outcome.andThen_eq_ok_iff.mp h⟩
  · rw [expression_of_atEnd hend] at h
    cases h

/-- An operator that binds more strongly than a power binds more strongly than any weaker one. -/
theorem operatorAhead?_mono {low high : BindingPower} (h : low ≤ high) {c : Cursor} {op : BinaryOp}
    (hop : g.operatorAhead? high c = some op) : g.operatorAhead? low c = some op := by
  unfold operatorAhead? at hop ⊢
  split at hop
  · rename_i hcond
    rwa [if_pos ⟨hcond.1, hcond.2.1, Nat.lt_of_le_of_lt h hcond.2.2⟩]
  · cases hop

/-- **A climb is a climb over the stronger operators that climbs on over the others.** -/
theorem climb_eq_andThen_climb {low high : BindingPower} (h : low ≤ high) (left : Expr)
    (c : Cursor) : g.climb low left c = (g.climb high left c).andThen (g.climb low) := by
  refine climb_induction (motive := fun left c r => g.climb low left c = r.andThen (g.climb low))
    ?_ ?_ ?_ left c
  · intro left c hop
    rfl
  · intro left c op err c' hop hr
    rw [climb_of_some (operatorAhead?_mono h hop), hr, Outcome.andThen_error]
  · intro left c op e c' hop hr ih
    rw [climb_of_some (operatorAhead?_mono h hop), hr, Outcome.andThen_ok, ih]

/-- **An expression is one of a stronger power that climbs on.** -/
theorem expression_eq_andThen_climb {low high : BindingPower} (h : low ≤ high) (c : Cursor) :
    g.expression low c = (g.expression high c).andThen (g.climb low) := by
  rcases hend : c.atEnd with _ | _
  · rw [expression_of_not_atEnd hend, expression_of_not_atEnd hend, Outcome.andThen_assoc]
    exact Outcome.andThen_congr fun left _ => climb_eq_andThen_climb h left _
  · rw [expression_of_atEnd hend, expression_of_atEnd hend, Outcome.andThen_error]

/-- An expression that was not read has no token, or fails in its operand or in the climb from there. -/
theorem expression_eq_error {err : SyntaxError} {c c' : Cursor}
    (h : g.expression bp c = ⟨.error err, c'⟩) :
    (c.atEnd = true ∧ c' = c ∧ err = c.current.noOperand) ∨
    (c.atEnd = false ∧ (g.operand g.expression c = ⟨.error err, c'⟩ ∨
      ∃ left c₁, g.operand g.expression c = ⟨.ok left, c₁⟩ ∧
        g.climb bp left c₁ = ⟨.error err, c'⟩)) := by
  rcases hend : c.atEnd with _ | _
  · rw [expression_of_not_atEnd hend] at h
    exact .inr ⟨rfl, Outcome.andThen_eq_error_iff.mp h⟩
  · rw [expression_of_atEnd hend] at h
    cases h
    exact .inl ⟨rfl, rfl, rfl⟩

/-- An expression ends where no operator that binds strongly enough is ahead. -/
theorem operatorAhead?_of_expression {e : Expr} {c c' : Cursor}
    (h : g.expression bp c = ⟨.ok e, c'⟩) : g.operatorAhead? bp c' = none := by
  obtain ⟨-, left, c₁, -, hclimb⟩ := expression_eq_ok h
  exact operatorAhead?_of_climb hclimb

end climbing

/-! ### Operands and operations -/

section parts

variable {g : Grammar} {inner : BindingPower → Cursor → Outcome Expr}

/-- **An operand that was read** is a token of its own, a unary operation, or a group. -/
theorem operand_eq_ok {c c' : Cursor} {e : Expr} (h : g.operand inner c = ⟨.ok e, c'⟩) :
    (c.current.primary = .ok e ∧ c' = c) ∨
    (∃ op arg, op.kind = c.current.kind ∧ inner .unary c.advance = ⟨.ok arg, c'⟩ ∧
      e = .unary c.current op arg (c.current.span.upTo arg.span)) ∨
    (∃ c₁, g.operand? c.current.kind = some .grouped ∧
      inner .lowest c.advance = ⟨.ok e, c₁⟩ ∧ c₁.lookahead.kind = .rightParen ∧
      c' = c₁.advance) := by
  unfold operand at h
  split at h
  · cases h
  · obtain ⟨hprim, rfl⟩ := Outcome.mk.inj h
    exact .inl ⟨hprim, rfl⟩
  · apply Or.inr
    apply Or.inl
    unfold prefixed at h
    split at h
    · cases h
    · rename_i op hop
      obtain ⟨arg, c₁, harg, hlast⟩ := Outcome.andThen_eq_ok_iff.mp h
      cases hlast
      exact ⟨op, arg, UnaryOp.ofKind?_eq_some_iff.mp hop, harg, rfl⟩
  · rename_i hrule
    apply Or.inr
    apply Or.inr
    obtain ⟨e₁, c₁, hinner, hclose⟩ := Outcome.andThen_eq_ok_iff.mp h
    split at hclose
    · rename_i c₂ hexpect
      cases hclose
      obtain ⟨hkind, rfl⟩ := Cursor.expect_eq_ok_iff.mp hexpect
      exact ⟨c₁, hrule, hinner, hkind, rfl⟩
    · cases hclose

/-- **An operand that was not read** fails at its token, in the expression inside it, or where its group
has to be closed. -/
theorem operand_eq_error {c c' : Cursor} {err : SyntaxError}
    (h : g.operand inner c = ⟨.error err, c'⟩) :
    (c' = c ∧ (err = c.current.noOperand ∨
      (c.current.kind = .integer ∧ err = ⟨.badNumeral c.current.text, c.current.span.start⟩))) ∨
    (∃ op : UnaryOp, op.kind = c.current.kind ∧ inner .unary c.advance = ⟨.error err, c'⟩) ∨
    (g.operand? c.current.kind = some .grouped ∧ (inner .lowest c.advance = ⟨.error err, c'⟩ ∨
      ∃ e, inner .lowest c.advance = ⟨.ok e, c'⟩ ∧ c'.expect .rightParen = .error err)) := by
  unfold operand at h
  split at h
  · cases h
    exact .inl ⟨rfl, .inl rfl⟩
  · obtain ⟨hprim, rfl⟩ := Outcome.mk.inj h
    exact .inl ⟨rfl, Token.primary_eq_error hprim⟩
  · unfold prefixed at h
    split at h
    · cases h
      exact .inl ⟨rfl, .inl rfl⟩
    · rename_i op hop
      rcases Outcome.andThen_eq_error_iff.mp h with harg | ⟨e, c₁, -, hlast⟩
      · exact .inr (.inl ⟨op, UnaryOp.ofKind?_eq_some_iff.mp hop, harg⟩)
      · cases hlast
  · rename_i hrule
    rcases Outcome.andThen_eq_error_iff.mp h with hinner | ⟨e, c₁, hinner, hclose⟩
    · exact .inr (.inr ⟨hrule, .inl hinner⟩)
    · split at hclose
      · cases hclose
      · rename_i hexpect
        cases hclose
        exact .inr (.inr ⟨hrule, .inr ⟨e, hinner, hexpect⟩⟩)

/-- **An operation that was not read** fails in its right operand. -/
theorem operation_eq_error {op : BinaryOp} {left : Expr} {c c' : Cursor} {err : SyntaxError}
    (h : g.operation inner op left c = ⟨.error err, c'⟩) :
    inner (g.power c.current.kind) c.advance = ⟨.error err, c'⟩ := by
  rcases Outcome.andThen_eq_error_iff.mp h with hright | ⟨right, c₁, -, hlast⟩
  · exact hright
  · cases hlast

/-- **An operation that was read** has a right operand, read with the power of the operator. -/
theorem operation_eq_ok_iff {op : BinaryOp} {left e : Expr} {c c' : Cursor} :
    g.operation inner op left c = ⟨.ok e, c'⟩ ↔
      ∃ right, inner (g.power c.current.kind) c.advance = ⟨.ok right, c'⟩ ∧
        e = .binary c.current op left right (left.span.upTo right.span) := by
  constructor
  · intro h
    obtain ⟨right, c₁, hright, hlast⟩ := Outcome.andThen_eq_ok_iff.mp h
    cases hlast
    exact ⟨right, hright, rfl⟩
  · rintro ⟨right, hright, rfl⟩
    rw [operation, hright, Outcome.andThen_ok]

end parts

/-! ### The standard grammar -/

/-- Only the left parenthesis starts a group in the standard grammar. -/
theorem kind_of_grouped {kind : TokenKind} (h : standard.operand? kind = some .grouped) :
    kind = .leftParen := by
  cases kind <;> first | rfl | cases h

/-- The standard power of a token is the power of the operator that it spells. -/
theorem standard_power_kind (op : BinaryOp) : standard.power op.kind = op.power := by
  cases op <;> rfl

/-- How operands start in the standard grammar. -/
theorem standard_operand (inner : BindingPower → Cursor → Outcome Expr) (c : Cursor) :
    standard.operand inner c =
      match c.current.kind with
      | .identifier | .integer | .trueWord | .falseWord => primary c
      | .minus | .bang => prefixed inner c
      | .leftParen => grouped inner c
      | _ => ⟨.error c.current.noOperand, c⟩ := by
  unfold operand
  cases c.current.kind <;> rfl

/-- **The operator ahead is the one that the token ahead spells, if its power is enough.** -/
theorem standard_operatorAhead?_eq_some_iff {bp : BindingPower} {c : Cursor} {op : BinaryOp}
    (hc : c.Terminated) :
    standard.operatorAhead? bp c = some op ↔ op.kind = c.lookahead.kind ∧ bp < op.power := by
  have hend : c.advance.atEnd = true ↔ c.lookahead.kind = .endOfInput := by
    rw [← Cursor.current_advance]
    exact hc.advance.atEnd_iff
  have hop : standard.operator? c.lookahead.kind = some op ↔ op.kind = c.lookahead.kind :=
    BinaryOp.ofKind?_eq_some_iff
  unfold operatorAhead?
  constructor
  · intro h
    split at h
    · rename_i hcond
      have hkind := hop.mp h
      refine ⟨hkind, ?_⟩
      rw [← standard_power_kind, hkind]
      exact hcond.2.2
    · cases h
  · rintro ⟨hkind, hpower⟩
    rw [if_pos]
    · exact hop.mpr hkind
    · refine ⟨?_, hkind ▸ BinaryOp.kind_ne_of_ofKind?_eq_none rfl op, ?_⟩
      · rw [Bool.eq_false_iff]
        intro h
        exact BinaryOp.kind_ne_of_ofKind?_eq_none rfl op (hkind.trans (hend.mp h))
      · rwa [← hkind, standard_power_kind]

/-- No operator is ahead in the standard grammar if none that the token ahead spells binds strongly
enough. -/
theorem standard_operatorAhead?_eq_none_iff {bp : BindingPower} {c : Cursor} (hc : c.Terminated) :
    standard.operatorAhead? bp c = none ↔
      ∀ op : BinaryOp, op.kind = c.lookahead.kind → ¬ bp < op.power := by
  rw [Option.eq_none_iff_forall_ne_some]
  constructor
  · intro h op hkind hpower
    exact h op ((standard_operatorAhead?_eq_some_iff hc).mpr ⟨hkind, hpower⟩)
  · intro h op hop
    obtain ⟨hkind, hpower⟩ := (standard_operatorAhead?_eq_some_iff hc).mp hop
    exact h op hkind hpower

/-- **No operator binds more strongly than a product.** -/
theorem standard_climb_of_product_le {bp : BindingPower} {left : Expr} {c : Cursor}
    (hc : c.Terminated) (hbp : .product ≤ bp) : standard.climb bp left c = ⟨.ok left, c⟩ := by
  apply climb_of_none
  rw [standard_operatorAhead?_eq_none_iff hc]
  intro op hkind
  have hop : op.power.level ≤ 4 := by cases op <;> decide
  rw [BindingPower.lt_def]
  rw [BindingPower.le_def, BindingPower.level] at hbp
  omega

/-- Asked for more than sums, an expression is one operand. -/
theorem standard_expression_of_product_le {bp : BindingPower} {c : Cursor} (hc : c.Terminated)
    (hend : c.atEnd = false) (hbp : .product ≤ bp) :
    standard.expression bp c = standard.operand standard.expression c := by
  rw [expression_of_not_atEnd hend]
  rcases hr : standard.operand standard.expression c with ⟨err | e, c'⟩
  · rfl
  · have hc' := terminated_of_operand hc hr
    exact standard_climb_of_product_le hc' hbp

/-- From the power of products on, no binary operator binds strongly enough, so all these powers
read the same expressions. -/
theorem standard_expression_eq_of_product_le {bp bp' : BindingPower} {c : Cursor}
    (hc : c.Terminated) (hbp : .product ≤ bp) (hbp' : .product ≤ bp') :
    standard.expression bp c = standard.expression bp' c := by
  rcases hend : c.atEnd with _ | _
  · rw [standard_expression_of_product_le hc hend hbp,
      standard_expression_of_product_le hc hend hbp']
  · rw [expression_of_atEnd hend, expression_of_atEnd hend]

end Grammar

end Prattle
