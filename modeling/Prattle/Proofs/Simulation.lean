import Prattle.Proofs.Climbing
import Prattle.Proofs.Relocation

/-!
# Two readings in step

A reading looks at the kinds and texts of tokens and passes their positions on, and it never looks
further ahead than one token. So two cursors whose tokens agree up to positions are read alike, as
long as both can be moved on.

`Cursor.Simulation steps f f' Out R` says what that takes of a relation `R` between cursors: related
cursors stand on tokens that are equal once `f` and `f'` have relocated them, and when both step over
a token of a kind in `steps` they stay related, or the first has come to where nothing is known about
the second any more (`Out`). `Outcome.last` is the furthest token that a reading looked at, so the two
readings agree unless that token is out.

* **Expressions are read alike** (`agree_expression`): both are read or neither is, with trees or
  errors that are equal once relocated, and the readings end on related cursors.
* **Statements are read alike** (`StatementSimulation.alike`), if skipping keeps cursors related too and
  rules may be followed. Where every kind but `;` may be stepped over this is so (`alike_statement`).
* **Texts are read alike** (`StatementSimulation.alike_statements`), in particular where every kind may be
  stepped over (`alike_statements`). So a text whose tokens stand at other places has its statements and
  errors at other places (`statements_of_relocated`).
-/

namespace Prattle

variable {steps : TokenKind → Prop} {f f' : Position → Position} {Out : Cursor → Prop}
  {R : Cursor → Cursor → Prop}

/-! ### Relocating what single tokens give -/

/-- Tokens that agree up to places are of one kind. -/
theorem Token.kind_eq_of_relocate {t t' : Token} (h : t.relocate f = t'.relocate f') :
    t.kind = t'.kind := by
  have hkind := congrArg Token.kind h
  rwa [kind_relocate, kind_relocate] at hkind

/-- Moving a token moves the leaf that it is read as, or the error. -/
theorem Token.primary_relocate (t : Token) :
    (t.relocate f).primary =
      match t.primary with
      | .ok e => .ok (e.relocate f)
      | .error err => .error (err.relocate f) := by
  obtain ⟨kind, text, span⟩ := t
  cases kind with
  | integer =>
    simp only [primary, relocate]
    rcases Numeral.value? text with _ | v
    · rfl
    · rfl
  | _ => rfl

/-! ### Simulations -/

/-- Related cursors see the same up to positions, and over the kinds of `steps` they stay related or the
first is out. Once out, a cursor stays out. -/
structure Cursor.Simulation (steps : TokenKind → Prop) (f f' : Position → Position)
    (Out : Cursor → Prop) (R : Cursor → Cursor → Prop) : Prop where
  current : ∀ {c d : Cursor}, R c d → c.current.relocate f = d.current.relocate f'
  atEnd : ∀ {c d : Cursor}, R c d → c.atEnd = d.atEnd
  advance : ∀ {c d : Cursor}, R c d → steps c.current.kind → Out c.advance ∨ R c.advance d.advance
  out : ∀ {c : Cursor}, Out c → Out c.advance

namespace Cursor.Simulation

variable {c d : Cursor} (hR : Simulation steps f f' Out R)
include hR

/-- Fewer steps ask for less. -/
theorem mono {steps' : TokenKind → Prop} (hsteps : ∀ kind, steps' kind → steps kind) :
    Simulation steps' f f' Out R :=
  ⟨hR.current, hR.atEnd, fun h hstep => hR.advance h (hsteps _ hstep), hR.out⟩

/-- Related cursors stand on tokens of one kind. -/
theorem kind (h : R c d) : c.current.kind = d.current.kind :=
  Token.kind_eq_of_relocate (hR.current h)

/-- Related cursors stand on tokens with related spans. -/
theorem span (h : R c d) : c.current.span.relocate f = d.current.span.relocate f' :=
  congrArg Token.span (hR.current h)

/-- Cursors whose next ones are related see related tokens ahead. -/
theorem lookahead (h : R c.advance d.advance) :
    c.lookahead.relocate f = d.lookahead.relocate f' := by
  have hnext := hR.current h
  rwa [current_advance, current_advance] at hnext

/-- What is out stays out from any later token on. -/
theorem out_forward (h : Out c) (n : Nat) : Out (c.forward n) := by
  induction n with
  | zero => rwa [forward_zero]
  | succ n ih =>
    have hnext := hR.out ih
    rwa [Cursor.advance, forward_forward] at hnext

/-- A reading that starts outside looks outside. -/
theorem out_last {r : Outcome Expr} (h : Out c) (hr : r.Follows c) : Out r.last := by
  obtain ⟨n, hn⟩ := hr
  obtain ⟨m, hm⟩ := r.exists_last_eq_forward
  rw [hm, hn, forward_forward]
  exact hR.out_forward h _

/-- Expecting a token of some kind moves both cursors on, or fails for both, unless that token is
out. -/
theorem expect (kind : TokenKind) (h : Out c.advance ∨ R c.advance d.advance) :
    Out c.advance ∨
    (c.expect kind = .ok c.advance ∧ d.expect kind = .ok d.advance ∧ R c.advance d.advance ∧
      c.advance.current.kind = kind) ∨
    (∃ err err', c.expect kind = .error err ∧ d.expect kind = .error err' ∧
      err.relocate f = err'.relocate f') := by
  rcases h with hout | hnext
  · exact .inl hout
  have hahead := hR.lookahead hnext
  unfold Cursor.expect
  rw [← Token.kind_eq_of_relocate hahead]
  by_cases hexpected : c.lookahead.kind = kind
  · rw [if_pos hexpected, if_pos hexpected]
    refine .inr (.inl ⟨rfl, rfl, hnext, ?_⟩)
    rw [current_advance, hexpected]
  · rw [if_neg hexpected, if_neg hexpected]
    refine .inr (.inr ⟨_, _, rfl, rfl, ?_⟩)
    exact congrArg (fun t : Token =>
      SyntaxError.mk (.unexpected kind c.lookahead.kind) t.span.start) hahead

end Cursor.Simulation

namespace Grammar

variable {g : Grammar}

/-! ### Expressions -/

/-- Two readings of expressions agree: both end on related cursors with trees that are equal once
relocated, or both with such errors, or the first has looked outside. A tree ends on a token that may
be stepped over. -/
inductive Agree (steps : TokenKind → Prop) (f f' : Position → Position) (Out : Cursor → Prop)
    (R : Cursor → Cursor → Prop) : Outcome Expr → Outcome Expr → Prop
  | ok {e e' : Expr} {c d : Cursor} (tree : e.relocate f = e'.relocate f') (related : R c d)
      (step : steps c.current.kind) : Agree steps f f' Out R ⟨.ok e, c⟩ ⟨.ok e', d⟩
  | error {err err' : SyntaxError} {c d : Cursor} (cause : err.relocate f = err'.relocate f')
      (related : R c d) : Agree steps f f' Out R ⟨.error err, c⟩ ⟨.error err', d⟩
  | out {r r' : Outcome Expr} (last : Out r.last) : Agree steps f f' Out R r r'

/-- Readings in a row agree if each of them does where the first succeeds. -/
theorem Agree.andThen {r r' : Outcome Expr} {next next' : Expr → Cursor → Outcome Expr}
    (h : Agree steps f f' Out R r r')
    (hnext : ∀ e e' c d, r = ⟨.ok e, c⟩ → e.relocate f = e'.relocate f' → R c d →
      steps c.current.kind → Agree steps f f' Out R (next e c) (next' e' d))
    (hout : ∀ e c, Out c.advance → Out (next e c).last) :
    Agree steps f f' Out R (r.andThen next) (r'.andThen next') := by
  rcases h with ⟨tree, related, step⟩ | ⟨cause, related⟩ | hlast
  · exact hnext _ _ _ _ rfl tree related step
  · exact .error cause related
  · obtain ⟨err | e, c⟩ := r
    · exact .out hlast
    · exact .out (hout e c hlast)

/-- The grammar reads expressions of tokens that may be stepped over. -/
structure Within (g : Grammar) (steps : TokenKind → Prop) : Prop where
  operand : ∀ {kind : TokenKind} {rule : OperandRule}, g.operand? kind = some rule → steps kind
  operator : ∀ {kind : TokenKind} {op : BinaryOp}, g.operator? kind = some op → steps kind
  closing : steps .rightParen

/-- No expression of the standard grammar has a `;` in it. -/
theorem standard_within : standard.Within (· ≠ .semicolon) where
  operand := by
    rintro kind rule h rfl
    cases h
  operator := by
    rintro kind op h rfl
    cases h
  closing := by decide

section expressions

variable (hR : Cursor.Simulation steps f f' Out R)
include hR

/-- Related cursors are read as leaves alike. -/
theorem agree_primary {c d : Cursor} (h : R c d) (hstep : steps c.current.kind) :
    Agree steps f f' Out R (primary c) (primary d) := by
  have hcurrent := congrArg Token.primary (hR.current h)
  rw [Token.primary_relocate, Token.primary_relocate] at hcurrent
  unfold primary
  rcases hc : c.current.primary with err | e <;> rcases hd : d.current.primary with err' | e' <;>
    rw [hc, hd] at hcurrent
  · exact .error (Except.error.inj hcurrent) h
  · cases hcurrent
  · cases hcurrent
  · exact .ok (Except.ok.inj hcurrent) h hstep

/-- Cursors whose next ones are related have the same operator ahead. -/
theorem operatorAhead?_eq_of_related {bp : BindingPower} {c d : Cursor}
    (h : R c.advance d.advance) : g.operatorAhead? bp c = g.operatorAhead? bp d := by
  unfold operatorAhead?
  rw [hR.atEnd h, Token.kind_eq_of_relocate (hR.lookahead h)]

/-- Related cursors read an operator with its right operand alike, if they read that operand alike.
-/
theorem agree_operation {inner : BindingPower → Cursor → Outcome Expr} (op : BinaryOp)
    {left left' : Expr} {c d : Cursor} (h : R c d) (hleft : left.relocate f = left'.relocate f')
    (hinner : ∀ bp, Agree steps f f' Out R (inner bp c.advance) (inner bp d.advance)) :
    Agree steps f f' Out R (g.operation inner op left c) (g.operation inner op left' d) := by
  unfold operation
  rw [← hR.kind h]
  apply (hinner _).andThen
  · intro e e' c' d' hr htree hR' hstep'
    refine .ok ?_ hR' hstep'
    rw [Expr.relocate, Expr.relocate, Span.relocate_upTo, Span.relocate_upTo, hR.current h,
      ← Expr.span_relocate, ← Expr.span_relocate, ← Expr.span_relocate, ← Expr.span_relocate, hleft,
      htree]
  · exact fun e c' hout => hout

/-- Behind a group only its `)` is looked at. -/
theorem out_last_closing {c : Cursor} {e : Expr} (hout : Out c.advance) :
    Out (Outcome.last (match c.expect .rightParen with
      | .ok c' => ⟨.ok e, c'⟩
      | .error err => ⟨.error err, c⟩)) := by
  rcases hexpect : c.expect .rightParen with err | c'
  · show Out (c.forward err.cause.ahead)
    rwa [(Cursor.blamed_of_expect hexpect).1]
  · obtain ⟨-, rfl⟩ := Cursor.expect_eq_ok_iff.mp hexpect
    exact hR.out hout

/-- A climb looks at the token ahead and further on. -/
theorem out_last_climb {bp : BindingPower} {left : Expr} {c : Cursor} (hout : Out c.advance) :
    Out (g.climb bp left c).last := by
  rcases hop : g.operatorAhead? bp c with _ | op
  · rw [climb_of_none hop]
    exact hout
  · rw [climb_of_some hop]
    exact hR.out_last hout ((follows_operation g.follows_expression op left _).andThen
      fun e c' => g.follows_climb bp e c')

variable (hg : g.Within steps)
include hg

/-- Related cursors read an operand alike, if they read the expressions inside it alike. -/
theorem agree_operand {c d : Cursor} (h : R c d)
    (hinner : ∀ bp, R c.advance d.advance →
      Agree steps f f' Out R (g.expression bp c.advance) (g.expression bp d.advance)) :
    Agree steps f f' Out R (g.operand g.expression c) (g.operand g.expression d) := by
  have hkind := hR.kind h
  have hnone : Agree steps f f' Out R ⟨.error c.current.noOperand, c⟩
      ⟨.error d.current.noOperand, d⟩ := .error (congrArg Token.noOperand (hR.current h)) h
  -- the expression inside starts at the next token, unless that is out
  have hnext : steps c.current.kind →
      ∀ bp, Agree steps f f' Out R (g.expression bp c.advance) (g.expression bp d.advance) := by
    intro hstep bp
    rcases hR.advance h hstep with hout | hnext
    · exact .out (hR.out_last hout (g.follows_expression bp _))
    · exact hinner bp hnext
  unfold operand
  rw [← hkind]
  rcases hrule : g.operand? c.current.kind with _ | _ | _ | _
  · exact hnone
  · exact agree_primary hR h (hg.operand hrule)
  · unfold prefixed
    rw [← hkind]
    rcases UnaryOp.ofKind? c.current.kind with _ | op
    · exact hnone
    · apply (hnext (hg.operand hrule) _).andThen
      · intro e e' c' d' hr htree hR' hstep
        refine .ok ?_ hR' hstep
        rw [Expr.relocate, Expr.relocate, Span.relocate_upTo, Span.relocate_upTo, hR.current h,
          hR.span h, ← Expr.span_relocate, ← Expr.span_relocate, htree]
      · exact fun e c' hout => hout
  · apply (hnext (hg.operand hrule) _).andThen
    · intro e e' c' d' hr htree hR' hstep
      rcases hR.expect .rightParen (hR.advance hR' hstep) with hout | ⟨hc, hd, hnext, hclose⟩ |
          ⟨err, err', hc, hd, hcause⟩
      · exact .out (out_last_closing hR hout)
      · rw [hc, hd]
        refine .ok htree hnext ?_
        rw [hclose]
        exact hg.closing
      · rw [hc, hd]
        exact .error hcause hR'
    · exact fun e c' hout => out_last_closing hR hout

/-- Related cursors with fewer than `n` tokens on the left are read alike. -/
def AgreesBelow (g : Grammar) (steps : TokenKind → Prop) (f f' : Position → Position)
    (Out : Cursor → Prop) (R : Cursor → Cursor → Prop) (n : Nat) : Prop :=
  ∀ bp c d, R c d → c.tokens.length < n →
    Agree steps f f' Out R (g.expression bp c) (g.expression bp d)

/-- Related cursors climb alike, if they read the expressions on the way alike. -/
theorem agree_climb {n : Nat} (inner : g.AgreesBelow steps f f' Out R n) {bp : BindingPower}
    {left left' : Expr} {c d : Cursor} (h : R c d) (hstep : steps c.current.kind)
    (hleft : left.relocate f = left'.relocate f') (hle : c.tokens.length ≤ n) :
    Agree steps f f' Out R (g.climb bp left c) (g.climb bp left' d) := by
  generalize hm : c.tokens.length = m
  induction m using Nat.strongRecOn generalizing left left' c d with
  | ind m ih =>
    subst hm
    rcases hR.advance h hstep with hout | hnext
    · exact .out (out_last_climb hR hout)
    have hahead : g.operatorAhead? bp c = g.operatorAhead? bp d :=
      operatorAhead?_eq_of_related hR hnext
    rcases hop : g.operatorAhead? bp c with _ | op
    · rw [hop] at hahead
      rw [climb_of_none hop, climb_of_none hahead.symm]
      exact .ok hleft h hstep
    · rw [hop] at hahead
      have hlt := Cursor.length_advance_lt_of_not_atEnd (atEnd_of_operatorAhead? hop)
      have hadvance := c.length_advance_le
      have hstep' : steps c.advance.current.kind := by
        rw [Cursor.current_advance]
        exact hg.operator (operator?_of_operatorAhead? hop)
      have hinner : ∀ bp, Agree steps f f' Out R (g.expression bp c.advance.advance)
          (g.expression bp d.advance.advance) := by
        intro bp
        rcases hR.advance hnext hstep' with hout | hafter
        · exact .out (hR.out_last hout (g.follows_expression bp _))
        · exact inner bp _ _ hafter (by omega)
      rw [climb_of_some hop, climb_of_some hahead.symm]
      apply (agree_operation hR op hnext hleft hinner).andThen
      · intro e e' c' d' hr htree hR' hlast
        have hshort : c'.tokens.length < c.tokens.length := length_operation_lt hop hr
        exact ih _ hshort hR' hlast htree (by omega) rfl
      · exact fun e c' hout => out_last_climb hR hout

/-- Related cursors read all expressions alike, by induction on the number of tokens left. -/
theorem agreesBelow (n : Nat) : g.AgreesBelow steps f f' Out R n := by
  induction n with
  | zero =>
    intro bp c d h hlt
    exact absurd hlt (Nat.not_lt_zero _)
  | succ n ih =>
    intro bp c d h hlt
    have hatEnd := hR.atEnd h
    rcases hend : c.atEnd with _ | _
    · have hadvance := Cursor.length_advance_lt_of_not_atEnd hend
      rw [expression_of_not_atEnd hend, expression_of_not_atEnd (hatEnd ▸ hend)]
      apply (agree_operand hR hg h fun bp hnext => ih bp _ _ hnext (by omega)).andThen
      · intro e e' c' d' hr htree hR' hstep
        have hle : c'.tokens.length ≤ c.tokens.length := length_operand_le hr
        exact agree_climb hR hg ih hR' hstep htree (by omega)
      · exact fun e c' hout => out_last_climb hR hout
    · rw [expression_of_atEnd hend, expression_of_atEnd (hatEnd ▸ hend)]
      exact .error (congrArg Token.noOperand (hR.current h)) h

/-- **Related cursors are read alike**: with trees or with errors, equal once relocated. -/
theorem agree_expression (bp : BindingPower) {c d : Cursor} (h : R c d) :
    Agree steps f f' Out R (g.expression bp c) (g.expression bp d) :=
  agreesBelow hR hg _ bp c d h (Nat.lt_succ_self _)

end expressions

/-! ### Statements -/

/-- Two readings of a statement agree: both met failures that are equal once relocated or none, both give
such statements or none, and they end on related cursors. Or the first has come out: on the way to its
end behind a failure, or with the last token it looked at. -/
inductive Alike (f f' : Position → Position) (Out : Cursor → Prop) (R : Cursor → Cursor → Prop)
    (r r' : Reading (Option Stmt)) : Prop
  | alike (failure : r.failure?.map (·.error.relocate f) = r'.failure?.map (·.error.relocate f'))
      (value : r.value.map (·.relocate f) = r'.value.map (·.relocate f'))
      (cursor : R r.cursor r'.cursor)
  | failed (failure : r.failure?.map (·.error.relocate f) = r'.failure?.map (·.error.relocate f'))
      (out : Out r.cursor)
  | out (last : Out r.last)

/-- What reading a statement takes of the relation, beyond what expressions take. `E` holds where readings
of related cursors may end: on tokens that no rule starts with, and behind a skipped value. A statement
that is read by a rule is read alike, or the rule can step over its first token. -/
structure StatementSimulation (steps : TokenKind → Prop) (f f' : Position → Position)
    (Out : Cursor → Prop) (R E : Cursor → Cursor → Prop) : Prop
    extends Cursor.Simulation steps f f' Out R where
  within : standard.Within steps
  span : ∀ {c d : Cursor}, E c d → c.current.span.relocate f = d.current.span.relocate f'
  ends : ∀ {c d : Cursor}, R c d → steps c.current.kind ∨ c.current.kind = .semicolon → E c d
  skip : ∀ {c d : Cursor}, R c d →
    Out c.skipToSemicolon ∨ E c.skipToSemicolon d.skipToSemicolon
  rule : ∀ {c d : Cursor} {rule : StatementRule}, R c d →
    standard.statement? c.current.kind = some rule →
    Alike f f' Out E (standard.statement c) (standard.statement d) ∨
      E c d ∧ (Out c.advance ∨ R c.advance d.advance)

section statements

variable {E : Cursor → Cursor → Prop} {c d : Cursor}
  (hS : StatementSimulation steps f f' Out R E)
include hS

/-- With the token ahead, what follows an expression statement is out. -/
theorem out_passSemicolon (hout : Out c.advance) : Out c.passSemicolon.advance := by
  unfold Cursor.passSemicolon
  split
  · exact hS.out hout
  · exact hout

/-- Related cursors pass a semicolon alike, unless they get out of what they share. -/
theorem ends_passSemicolon (h : R c d) (hstep : steps c.current.kind) :
    Out c.passSemicolon.advance ∨ E c.passSemicolon d.passSemicolon := by
  rcases hS.advance h hstep with hout | hnext
  · exact .inl (out_passSemicolon hS hout)
  · unfold Cursor.passSemicolon
    rw [← Token.kind_eq_of_relocate (hS.lookahead hnext)]
    by_cases hahead : c.lookahead.kind = .semicolon
    · rw [if_pos hahead, if_pos hahead]
      rw [← Cursor.current_advance] at hahead
      exact .inr (hS.ends hnext (.inr hahead))
    · rw [if_neg hahead, if_neg hahead]
      exact .inr (hS.ends h (.inl hstep))

/-- The span of a statement runs from its first token to where its reading ended. -/
theorem span_upTo_eq {c' d' : Cursor} (h : R c d) (h' : E c' d') :
    (c.current.span.upTo c'.current.span).relocate f =
      (d.current.span.upTo d'.current.span).relocate f' := by
  rw [Span.relocate_upTo, Span.relocate_upTo, hS.toSimulation.span h, hS.span h']

/-- A binding looks for its name, and for an `=` behind a name. -/
theorem out_last_binding (hrule : standard.statement? c.current.kind = some .binding)
    (hout : Out c.advance ∨ c.expect .identifier = .ok c.advance ∧ Out c.advance.advance) :
    Out (standard.statement c).last := by
  have hout₂ : Out c.advance.advance := hout.elim hS.out And.right
  rcases hname : c.expect .identifier with err | c₁
  · have hread : ruleStatement .binding c = ⟨.error err, c⟩ := Cursor.binding_of_unnamed hname
    rw [statement_of_rule_error hrule hread]
    show Out (c.forward err.cause.ahead)
    rw [(Cursor.blamed_of_expect hname).1]
    rcases hout with hout | ⟨hok, -⟩
    · exact hout
    · rw [hname] at hok
      cases hok
  · obtain ⟨hkind, rfl⟩ := Cursor.expect_eq_ok_iff.mp hname
    rcases hassign : c.advance.expect .assign with err | c₂
    · have hread : ruleStatement .binding c = ⟨.error err, c.advance⟩ :=
        Cursor.binding_of_unassigned hname hassign
      rw [statement_of_rule_error hrule hread]
      show Out (c.advance.forward err.cause.ahead)
      rwa [(Cursor.blamed_of_expect hassign).1]
    · have hread : ruleStatement .binding c = ⟨.ok _, _⟩ := Cursor.binding_eq_ok_iff.mpr
        ⟨hkind, (Cursor.expect_eq_ok_iff.mp hassign).1, rfl, rfl⟩
      rw [statement_of_rule_ok hrule hread]
      exact hS.out (hS.out_forward hout₂ _)

/-- Related cursors read a statement with `let` alike. -/
theorem alike_binding (hrule : standard.statement? c.current.kind = some .binding) (h : R c d)
    (hend : E c d) (hnext : Out c.advance ∨ R c.advance d.advance) :
    Alike f f' Out E (standard.statement c) (standard.statement d) := by
  have hrule' := hrule
  rw [hS.kind h] at hrule'
  rcases hS.expect .identifier hnext with hout | ⟨hc, hd, hname, hkind⟩ | ⟨err, err', hc, hd, hcause⟩
  · exact .out (out_last_binding hS hrule (.inl hout))
  · have hstep : steps c.advance.current.kind := by
      rw [hkind]
      exact hS.within.operand (rfl : standard.operand? .identifier = some .primary)
    rcases hS.expect .assign (hS.advance hname hstep) with hout | ⟨hc₂, hd₂, hassign, -⟩ |
        ⟨err, err', hc₂, hd₂, hcause⟩
    · exact .out (out_last_binding hS hrule (.inr ⟨hc, hout⟩))
    · have hread : ruleStatement .binding c = ⟨.ok _, _⟩ := Cursor.binding_eq_ok_iff.mpr
        ⟨(Cursor.expect_eq_ok_iff.mp hc).1, (Cursor.expect_eq_ok_iff.mp hc₂).1, rfl, rfl⟩
      have hread' : ruleStatement .binding d = ⟨.ok _, _⟩ := Cursor.binding_eq_ok_iff.mpr
        ⟨(Cursor.expect_eq_ok_iff.mp hd).1, (Cursor.expect_eq_ok_iff.mp hd₂).1, rfl, rfl⟩
      rw [statement_of_rule_ok hrule hread, statement_of_rule_ok hrule' hread']
      rcases hS.skip hassign with hout | hstop
      · exact .out (hS.out hout)
      · refine .alike rfl (congrArg some ?_) hstop
        dsimp only [Stmt.relocate]
        rw [hS.current h, span_upTo_eq hS h hstop, Identifier.relocate_ofToken,
          Identifier.relocate_ofToken, hS.lookahead hname]
        rfl
    · have hread : ruleStatement .binding c = ⟨.error err, c.advance⟩ :=
        Cursor.binding_of_unassigned hc hc₂
      have hread' : ruleStatement .binding d = ⟨.error err', d.advance⟩ :=
        Cursor.binding_of_unassigned hd hd₂
      rw [statement_of_rule_error hrule hread, statement_of_rule_error hrule' hread']
      exact .alike (congrArg some hcause) rfl (hS.ends hname (.inl hstep))
  · have hread : ruleStatement .binding c = ⟨.error err, c⟩ := Cursor.binding_of_unnamed hc
    have hread' : ruleStatement .binding d = ⟨.error err', d⟩ := Cursor.binding_of_unnamed hd
    rw [statement_of_rule_error hrule hread, statement_of_rule_error hrule' hread']
    exact .alike (congrArg some hcause) rfl hend

/-- Related cursors read a statement with `return` alike. -/
theorem alike_returning (hrule : standard.statement? c.current.kind = some .returning) (h : R c d)
    (hnext : Out c.advance ∨ R c.advance d.advance) :
    Alike f f' Out E (standard.statement c) (standard.statement d) := by
  have hrule' := hrule
  rw [hS.kind h] at hrule'
  have hread : ruleStatement .returning c = ⟨.ok _, _⟩ := rfl
  have hread' : ruleStatement .returning d = ⟨.ok _, _⟩ := rfl
  rw [statement_of_rule_ok hrule hread, statement_of_rule_ok hrule' hread']
  rcases hnext with hout | hnext
  · exact .out (hS.out (hS.out_forward hout _))
  rcases hS.skip hnext with hout | hstop
  · exact .out (hS.out hout)
  · refine .alike rfl (congrArg some ?_) hstop
    dsimp only [Stmt.relocate]
    rw [hS.current h, span_upTo_eq hS h hstop]
    rfl

/-- Related cursors read a statement without a keyword alike. -/
theorem alike_expression (hrule : standard.statement? c.current.kind = none) (h : R c d) :
    Alike f f' Out E (standard.statement c) (standard.statement d) := by
  have hrule' := hrule
  rw [hS.kind h] at hrule'
  have hagree := agree_expression hS.toSimulation hS.within .lowest h
  rcases hc : standard.expression .lowest c with ⟨err | e, c'⟩ <;>
    rcases hd : standard.expression .lowest d with ⟨err' | e', d'⟩ <;>
    rw [hc, hd] at hagree
  · rw [statement_of_expression_error hrule hc, statement_of_expression_error hrule' hd]
    rcases hagree with _ | ⟨hcause, h'⟩ | hlast
    · rcases hS.skip h' with hout | hstop
      · exact .failed (congrArg some hcause) hout
      · refine .alike (congrArg some hcause) (congrArg some ?_) hstop
        dsimp only [Stmt.relocate]
        rw [hS.current h, span_upTo_eq hS h hstop]
        rfl
    · exact .out hlast
  · rw [statement_of_expression_error hrule hc]
    rcases hagree with _ | _ | hlast
    exact .out hlast
  · rw [statement_of_expression_ok hrule hc]
    rcases hagree with _ | _ | hlast
    exact .out (out_passSemicolon hS hlast)
  · rw [statement_of_expression_ok hrule hc, statement_of_expression_ok hrule' hd]
    rcases hagree with ⟨htree, h', hstep⟩ | _ | hlast
    · rcases ends_passSemicolon hS h' hstep with hout | hstop
      · exact .out hout
      · refine .alike rfl (congrArg some ?_) hstop
        dsimp only [Stmt.relocate]
        rw [hS.current h, span_upTo_eq hS h hstop, Option.map_some, Option.map_some, htree]
    · exact .out (out_passSemicolon hS hlast)

/-- **A statement is read alike from related cursors.** -/
theorem StatementSimulation.alike (h : R c d) :
    Alike f f' Out E (standard.statement c) (standard.statement d) := by
  rcases hrule : standard.statement? c.current.kind with _ | rule
  · exact alike_expression hS hrule h
  · rcases hS.rule h hrule with halike | ⟨hend, hnext⟩
    · exact halike
    · rcases standard_statement?_eq_some hrule with ⟨-, rfl⟩ | ⟨-, rfl⟩
      · exact alike_binding hS hrule h hend hnext
      · exact alike_returning hS hrule h hnext

end statements

section terminators

variable (hR : Cursor.Simulation (· ≠ .semicolon) f f' Out R) {c d : Cursor}
include hR

/-- Skipping to a `;` keeps cursors related, since it steps over anything but a `;`. -/
theorem related_skipToSemicolon (h : R c d) :
    Out c.skipToSemicolon ∨ R c.skipToSemicolon d.skipToSemicolon := by
  generalize hn : c.tokens.length = n
  induction n using Nat.strongRecOn generalizing c d with
  | ind n ih =>
    subst hn
    rw [c.skipToSemicolon_eq, d.skipToSemicolon_eq, ← hR.atEnd h, ← hR.kind h]
    by_cases hstop : c.atEnd = true ∨ c.current.kind = .semicolon
    · rw [if_pos hstop, if_pos hstop]
      exact .inr h
    · rw [if_neg hstop, if_neg hstop]
      rw [not_or, Bool.not_eq_true] at hstop
      rcases hR.advance h hstop.2 with hout | hnext
      · exact .inl (hR.out_forward hout _)
      · exact ih _ (Cursor.length_advance_lt_of_not_atEnd hstop.1) hnext rfl

/-- No statement steps over a `;`, so what all other kinds keep related is read alike. -/
theorem statementSimulation_of_simulation :
    StatementSimulation (· ≠ .semicolon) f f' Out R R where
  toSimulation := hR
  within := standard_within
  span := hR.span
  ends := fun h _ => h
  skip := related_skipToSemicolon hR
  rule := by
    intro c d rule h hrule
    refine .inr ⟨h, hR.advance h ?_⟩
    rintro hkind
    rw [hkind] at hrule
    cases hrule

/-- **A statement is read alike from related cursors**, and no reading steps over a `;`. -/
theorem alike_statement (h : R c d) :
    Alike f f' Out R (standard.statement c) (standard.statement d) :=
  (statementSimulation_of_simulation hR).alike h

end terminators

/-! ### Texts -/

section texts

/-- Where nothing is out, readings that are alike give the same up to positions. -/
theorem Alike.maps {r r' : Reading (Option Stmt)} (h : Alike f f' (fun _ => False) R r r') :
    r.value.toList.map (·.relocate f) = r'.value.toList.map (·.relocate f') ∧
      (r.failure?.map (·.error)).toList.map (·.relocate f) =
        (r'.failure?.map (·.error)).toList.map (·.relocate f') ∧ R r.cursor r'.cursor := by
  rcases h with ⟨failure, value, cursor⟩ | ⟨-, hout⟩ | hout
  · refine ⟨?_, ?_, cursor⟩
    · rw [← Option.toList_map, ← Option.toList_map, value]
    · rw [← Option.toList_map, ← Option.toList_map, Option.map_map, Option.map_map]
      exact congrArg Option.toList failure
  · exact hout.elim
  · exact hout.elim

/-- **Texts are read alike from related cursors**, if behind each statement they are related again or at
the end. -/
theorem StatementSimulation.alike_statements {E : Cursor → Cursor → Prop}
    (hS : StatementSimulation steps f f' (fun _ => False) R E)
    (hbehind : ∀ {c d : Cursor}, E c d →
      R c.advance d.advance ∨ c.advance.atEnd = true ∧ d.advance.atEnd = true)
    {c d : Cursor} (h : R c d) :
    (Reading.values (standard.statements c)).map (·.relocate f) =
        (Reading.values (standard.statements d)).map (·.relocate f') ∧
      (Reading.errors (standard.statements c)).map (·.relocate f) =
        (Reading.errors (standard.statements d)).map (·.relocate f') := by
  induction c using standard.statements_induction generalizing d with
  | atEnd c hend =>
    have hend' : d.atEnd = true := (hS.atEnd h).symm.trans hend
    rw [statements_of_atEnd hend, statements_of_atEnd hend']
    exact ⟨rfl, rfl⟩
  | statement c hend ih =>
    have hend' : d.atEnd = false := (hS.atEnd h).symm.trans hend
    obtain ⟨hvalue, herror, hcursor⟩ := (hS.alike h).maps
    rw [statements_of_not_atEnd hend, statements_of_not_atEnd hend',
      Reading.values_cons, Reading.values_cons, Reading.errors_cons, Reading.errors_cons,
      List.map_append, List.map_append, List.map_append, List.map_append, hvalue, herror]
    rcases hbehind hcursor with hnext | ⟨hlast, hlast'⟩
    · obtain ⟨hvalues, herrors⟩ := ih hnext
      rw [hvalues, herrors]
      exact ⟨rfl, rfl⟩
    · rw [statements_of_atEnd hlast, statements_of_atEnd hlast']
      exact ⟨rfl, rfl⟩

/-- **Texts are read alike from related cursors** that stay related over tokens of every kind. -/
theorem alike_statements (hR : Cursor.Simulation (fun _ => True) f f' (fun _ => False) R)
    {c d : Cursor} (h : R c d) :
    (Reading.values (standard.statements c)).map (·.relocate f) =
        (Reading.values (standard.statements d)).map (·.relocate f') ∧
      (Reading.errors (standard.statements c)).map (·.relocate f) =
        (Reading.errors (standard.statements d)).map (·.relocate f') :=
  (statementSimulation_of_simulation (hR.mono fun _ _ => trivial)).alike_statements
    (fun hend => .inl ((hR.advance hend trivial).resolve_left not_false)) h

end texts

/-! ### Relocated texts -/

/-- The second cursor has the tokens of the first at other places. -/
structure Relocated (f : Position → Position) (c d : Cursor) : Prop where
  tokens : c.tokens.map (·.relocate f) = d.tokens
  eof : c.eof.relocate f = d.eof

/-- A text whose tokens stand at other places is read like the text. -/
theorem relocated_simulation :
    Cursor.Simulation (fun _ => True) f id (fun _ => False) (Relocated f) where
  current := by
    rintro ⟨_ | ⟨t, ts⟩, eof, i⟩ ⟨ts', eof', j⟩ ⟨rfl, rfl⟩
    · rfl
    · rfl
  atEnd := by
    rintro ⟨_ | ⟨t, ts⟩, eof, i⟩ ⟨ts', eof', j⟩ ⟨rfl, rfl⟩
    · rfl
    · rfl
  advance := by
    rintro c d ⟨htokens, heof⟩ -
    refine .inr ⟨?_, heof⟩
    rw [Cursor.tokens_advance, Cursor.tokens_advance, ← htokens, List.map_tail]
  out := id

/-- **A text with its tokens at other places is read alike**: with the same statements and errors, at
other places. -/
theorem statements_of_relocated {c d : Cursor} (h : Relocated f c d) :
    (Reading.values (standard.statements c)).map (·.relocate f) =
        Reading.values (standard.statements d) ∧
      (Reading.errors (standard.statements c)).map (·.relocate f) =
        Reading.errors (standard.statements d) := by
  obtain ⟨hvalues, herrors⟩ := alike_statements relocated_simulation h
  simp only [Stmt.relocate_id, SyntaxError.relocate_id, List.map_id'] at hvalues herrors
  exact ⟨hvalues, herrors⟩

/-- **Reading makes no positions up**: where `f` fixes those of the tokens, it fixes those of the
statements and the errors. -/
theorem fixed_of_relocated {c : Cursor} (h : Relocated f c c) :
    (∀ s ∈ Reading.values (standard.statements c), ∀ p ∈ s.positions, f p = p) ∧
      ∀ e ∈ Reading.errors (standard.statements c), f e.position = e.position := by
  obtain ⟨hvalues, herrors⟩ := statements_of_relocated h
  constructor
  · intro s hs
    exact Stmt.relocate_eq_self_iff.mp (List.map_inj_left.mp (hvalues.trans (List.map_id _).symm) s hs)
  · intro e he
    exact SyntaxError.relocate_eq_self_iff.mp
      (List.map_inj_left.mp (herrors.trans (List.map_id _).symm) e he)

end Grammar

end Prattle
