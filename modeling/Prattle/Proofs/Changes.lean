import Prattle.Proofs.Calls
import Prattle.Proofs.Parsed

/-!
# Trees fit their tokens, however the grammar was changed

The grammar of a parser may be changed entry by entry, so that any kind of token may start an operand or a
statement of any sort, and operators may bind with any power. Two things stay as they are in the grammar of
the language.

* **Operators and powers are entered together** (`Grammar.Consistent`): a kind of token has a power iff it
  spells an operator, and that operator is the one that tokens of the kind spell. So a climb goes on unless
  a `;` is ahead or nothing that binds strongly enough (`Grammar.Consistent.operatorAhead?_eq_none_iff`).
* **A node is what its token spells** (`Grammar.wellFormed_of_expression`), and no value of a binding or a
  return is ever read (`Grammar.fits_of_statement`).
* Both hold of a parser after any calls (`fits_after_run`).
-/

namespace Prattle

namespace Grammar

/-! ### The two tables of operators -/

/-- The tables of operators and of powers agree. -/
structure Consistent (g : Grammar) : Prop where
  /-- An operator is entered at the kind of token that spells it. -/
  kind : ∀ {kind : TokenKind} {op : BinaryOp}, g.operator? kind = some op → op.kind = kind
  /-- A kind has a power iff it spells an operator. -/
  keys : ∀ kind : TokenKind, (g.power? kind).isSome = (g.operator? kind).isSome

variable {g : Grammar}

/-- The standard grammar is consistent. -/
theorem consistent_standard : standard.Consistent where
  kind := BinaryOp.ofKind?_eq_some_iff.mp
  keys _ := Option.isSome_map

/-- Registering an operator under a power keeps a grammar consistent. -/
theorem Consistent.withOperator (hg : g.Consistent) (op : BinaryOp) (power : BindingPower) :
    (g.withOperator op power).Consistent where
  kind := by
    intro kind op' h
    simp only [Grammar.withOperator] at h
    split_ifs at h with hkind
    · rw [← Option.some.inj h, hkind]
    · exact hg.kind h
  keys := by
    intro kind
    simp only [Grammar.withOperator]
    split_ifs
    · rfl
    · exact hg.keys kind

/-- Registering an operand keeps a grammar consistent. -/
theorem Consistent.withOperand (hg : g.Consistent) (kind : TokenKind) (rule : OperandRule) :
    (g.withOperand kind rule).Consistent :=
  ⟨hg.kind, hg.keys⟩

/-- Registering a statement keeps a grammar consistent. -/
theorem Consistent.withStatement (hg : g.Consistent) (kind : TokenKind) (rule : StatementRule) :
    (g.withStatement kind rule).Consistent :=
  ⟨hg.kind, hg.keys⟩

/-- **What binds more strongly than anything is an operator.** -/
theorem Consistent.exists_operator (hg : g.Consistent) {bp : BindingPower} {kind : TokenKind}
    (h : bp < g.power kind) : ∃ op, g.operator? kind = some op := by
  rw [← Option.isSome_iff_exists, ← hg.keys]
  rcases hpower : g.power? kind with _ | p
  · rw [power, hpower] at h
    exact absurd h (Nat.not_lt_zero _)
  · rfl

/-- In a consistent grammar the end of the text is no operator. -/
theorem Consistent.ne_endOfInput (hg : g.Consistent) {kind : TokenKind} {op : BinaryOp}
    (h : g.operator? kind = some op) : kind ≠ .endOfInput :=
  (hg.kind h).symm.trans_ne (BinaryOp.kind_ne_of_ofKind?_eq_none rfl op)

/-- **A climb only stops at a `;` or where nothing ahead binds strongly enough**: there is always an operator
to go with a power. -/
theorem Consistent.operatorAhead?_eq_none_iff (hg : g.Consistent) {bp : BindingPower} {c : Cursor}
    (hc : c.Terminated) :
    g.operatorAhead? bp c = none ↔
      c.lookahead.kind = .semicolon ∨ ¬ bp < g.power c.lookahead.kind := by
  unfold operatorAhead?
  constructor
  · intro h
    by_contra hgoes
    obtain ⟨hsemicolon, hpower⟩ := not_or.mp hgoes
    obtain ⟨op, hop⟩ := hg.exists_operator (not_not.mp hpower)
    have hkind := hg.ne_endOfInput hop
    rw [← Cursor.current_advance] at hkind
    rw [if_pos ⟨hc.advance.atEnd_eq_false rfl hkind, hsemicolon, not_not.mp hpower⟩, hop] at h
    cases h
  · rintro (hsemicolon | hpower)
    · exact if_neg fun hcond => hcond.2.1 hsemicolon
    · exact if_neg fun hcond => hpower hcond.2.2

end Grammar

/-! ### Trees -/

/-- The cursor stands among tokens that were scanned. -/
structure Cursor.Scanned (c : Cursor) : Prop where
  terminated : c.Terminated
  spelled : ∀ t ∈ c.tokens, t.Spelled

namespace Cursor

variable {c c' : Cursor}

/-- The tokens of a text come from a scanner. -/
theorem scanned_ofText (text : String) (file : Option String) : (ofText text file).Scanned :=
  ⟨terminated_ofText text file, Scanner.spelled_of_mem⟩

/-- What a scanner gave is what it gave from any later token on. -/
theorem Scanned.forward (h : c.Scanned) (n : Nat) : (c.forward n).Scanned :=
  ⟨h.terminated.forward n, fun t ht => h.spelled t (List.mem_of_mem_drop ht)⟩

/-- What a scanner gave is what it gave from the next token on. -/
theorem Scanned.advance (h : c.Scanned) : c.advance.Scanned :=
  h.forward 1

/-- A reading ends among the tokens it started in. -/
theorem Scanned.of_follows {α : Type} {r : Outcome α} {x : Except SyntaxError α} (h : c.Scanned)
    (hr : r.Follows c) (hresult : r = ⟨x, c'⟩) : c'.Scanned := by
  obtain ⟨n, hn⟩ := hr
  rw [hresult] at hn
  rw [show c' = c.forward n from hn]
  exact h.forward n

/-- A token of a kind of its own that the cursor stands on is spelled. -/
theorem Scanned.current (h : c.Scanned) (hkind : c.current.kind ≠ .endOfInput) : c.current.Spelled := by
  apply h.spelled
  rw [tokens_of_not_atEnd (h.terminated.atEnd_eq_false rfl hkind)]
  exact List.mem_cons_self

end Cursor

/-- A token of the kind of a unary operator is spelled like the operator. -/
theorem Token.Spelled.face_unaryOp {t : Token} (ht : t.Spelled) {op : UnaryOp} (h : op.kind = t.kind) :
    t.face = (op.kind, op.spelling) :=
  ht.face h.symm (by cases op <;> decide) op.spells

/-- A token of the kind of a binary operator is spelled like the operator. -/
theorem Token.Spelled.face_binaryOp {t : Token} (ht : t.Spelled) {op : BinaryOp} (h : op.kind = t.kind) :
    t.face = (op.kind, op.spelling) :=
  ht.face h.symm (by cases op <;> decide) op.spells

namespace Grammar

variable {g : Grammar} {bp : BindingPower} {c c' : Cursor} {e : Expr}

/-- Every expression read where fewer than `n` tokens are left is well-formed. -/
def WellFormedBelow (g : Grammar) (n : Nat) : Prop :=
  ∀ (bp : BindingPower) (c c' : Cursor) (e : Expr), c.Scanned → c.tokens.length < n →
    g.expression bp c = ⟨.ok e, c'⟩ → e.WellFormed

/-- Fewer tokens leave fewer expressions to speak of. -/
theorem WellFormedBelow.mono {m n : Nat} (h : g.WellFormedBelow n) (hle : m ≤ n) :
    g.WellFormedBelow m :=
  fun bp c c' e hc hlt => h bp c c' e hc (Nat.lt_of_lt_of_le hlt hle)

/-- An operand is well-formed, if the expressions inside it are. -/
theorem wellFormed_of_operand (hc : c.Scanned) (hend : c.atEnd = false)
    (inner : g.WellFormedBelow c.tokens.length) (h : g.operand g.expression c = ⟨.ok e, c'⟩) :
    e.WellFormed := by
  have hadvance := Cursor.length_advance_lt_of_not_atEnd hend
  have ht : c.current.Spelled := by
    apply hc.spelled
    rw [Cursor.tokens_of_not_atEnd hend]
    exact List.mem_cons_self
  rcases operand_eq_ok h with ⟨hprimary, -⟩ | ⟨op, arg, hop, harg, rfl⟩ | ⟨c₁, -, hinner, -, -⟩
  · exact Expr.wellFormed_of_primary ht hprimary
  · exact ⟨ht.face_unaryOp hop, inner _ _ _ _ hc.advance hadvance harg⟩
  · exact inner _ _ _ _ hc.advance hadvance hinner

/-- A climb from a well-formed operand is well-formed, if the expressions that it reads are. -/
theorem wellFormed_of_climb (hg : g.Consistent) {left : Expr} (hc : c.Scanned)
    (inner : g.WellFormedBelow c.tokens.length) (hleft : left.WellFormed)
    (h : g.climb bp left c = ⟨.ok e, c'⟩) : e.WellFormed := by
  revert hc inner hleft h
  refine climb_induction (motive := fun left c r => c.Scanned → g.WellFormedBelow c.tokens.length →
    left.WellFormed → r = ⟨.ok e, c'⟩ → e.WellFormed) ?_ ?_ ?_ left c
  · rintro left c - - - hleft ⟨⟩
    exact hleft
  · rintro left c op err c₁ - - - - - ⟨⟩
  · intro left c op e₁ c₁ hop hr ih hc inner hleft hclimb
    have hend := atEnd_of_operatorAhead? hop
    have hadvance := Cursor.length_advance_lt_of_not_atEnd hend
    have hkind := hg.kind (operator?_of_operatorAhead? hop)
    have hc₁ := hc.advance.of_follows (follows_operation g.follows_expression op left c.advance) hr
    have hlt : c₁.tokens.length < c.tokens.length := length_operation_lt hop hr
    obtain ⟨right, hright, rfl⟩ := operation_eq_ok_iff.mp hr
    rw [← Cursor.current_advance] at hkind
    have ht := hc.advance.current (hkind.symm.trans_ne (BinaryOp.kind_ne_of_ofKind?_eq_none rfl op))
    have hwellFormed : right.WellFormed :=
      inner _ _ _ _ hc.advance.advance (Nat.lt_of_lt_of_le hadvance c.length_advance_le) hright
    exact ih hc₁ (inner.mono (Nat.le_of_lt hlt)) ⟨ht.face_binaryOp hkind, hleft, hwellFormed⟩ hclimb

/-- Every expression that is read is well-formed, by induction on the number of tokens left. -/
theorem wellFormedBelow (hg : g.Consistent) (n : Nat) : g.WellFormedBelow n := by
  induction n with
  | zero => exact fun bp c c' e hc hlt => absurd hlt (Nat.not_lt_zero _)
  | succ n ih =>
    intro bp c c' e hc hlt h
    have inner : g.WellFormedBelow c.tokens.length := ih.mono (Nat.le_of_lt_succ hlt)
    obtain ⟨hend, left, c₁, hoperand, hclimb⟩ := expression_eq_ok h
    have hc₁ := hc.of_follows (follows_operand g.follows_expression c) hoperand
    have hle : c₁.tokens.length ≤ c.tokens.length := length_operand_le hoperand
    exact wellFormed_of_climb hg hc₁ (inner.mono hle) (wellFormed_of_operand hc hend inner hoperand)
      hclimb

/-- **A tree that was read fits its tokens**, whatever the grammar. -/
theorem wellFormed_of_expression (hg : g.Consistent) (hc : c.Scanned)
    (h : g.expression bp c = ⟨.ok e, c'⟩) : e.WellFormed :=
  wellFormedBelow hg _ bp c c' e hc (Nat.lt_succ_self _) h

end Grammar

/-! ### Statements -/

/-- The trees in the statement fit their tokens, and it has no value but that of an expression. -/
def Stmt.Fits : Stmt → Prop
  | binding _ name value _ => (Expr.identifier name).WellFormed ∧ value = none
  | returning _ value _ => value = none
  | expression _ value _ => ∀ e ∈ value, e.WellFormed

namespace Grammar

variable {g : Grammar} {c c' : Cursor} {s : Stmt}

/-- What the rule of a keyword reads fits its tokens. -/
theorem fits_of_rule {rule : StatementRule} (hc : c.Scanned) (h : ruleStatement rule c = ⟨.ok s, c'⟩) :
    s.Fits := by
  cases rule with
  | binding =>
    obtain ⟨hname, -, -, rfl⟩ := Cursor.binding_eq_ok_iff.mp h
    rw [← Cursor.current_advance] at hname ⊢
    have ht := hc.advance.current (hname.trans_ne (by decide))
    obtain ⟨hword, hfree⟩ := (ht.spells hname (by decide)).of_identifier
    exact ⟨⟨hname, rfl, hword, hfree⟩, rfl⟩
  | returning =>
    cases h
    rfl

/-- **A statement that was read fits its tokens**, whatever the grammar. -/
theorem fits_of_statement (hg : g.Consistent) (hc : c.Scanned) (h : (g.statement c).value = some s) :
    s.Fits := by
  rcases hrule : g.statement? c.current.kind with _ | rule
  · rcases hr : g.expression .lowest c with ⟨err | e, c'⟩
    · rw [statement_of_expression_error hrule hr] at h
      cases h
      exact nofun
    · rw [statement_of_expression_ok hrule hr] at h
      cases h
      rintro _ ⟨⟩
      exact wellFormed_of_expression hg hc hr
  · rcases hr : ruleStatement rule c with ⟨err | s', c'⟩
    · rw [statement_of_rule_error hrule hr] at h
      cases h
    · rw [statement_of_rule_ok hrule hr] at h
      cases h
      exact fits_of_rule hc hr

/-- **Every statement that is read fits its tokens.** -/
theorem fits_of_statements (hg : g.Consistent) (hc : c.Scanned) :
    ∀ s ∈ Reading.values (g.statements c), s.Fits := by
  induction c using g.statements_induction with
  | atEnd c hend =>
    rw [statements_of_atEnd hend]
    exact fun s hs => absurd hs List.not_mem_nil
  | statement c hend ih =>
    obtain ⟨k, hk⟩ := g.exists_advance_eq_forward c
    have hnext : (g.statement c).cursor.advance.Scanned := by
      rw [hk]
      exact hc.forward _
    rw [statements_of_not_atEnd hend, Reading.values_cons]
    refine List.forall_mem_append.mpr ⟨fun s hs => ?_, ih hnext⟩
    exact fits_of_statement hg hc (Option.mem_toList.mp hs)

end Grammar

/-! ### Parsers -/

namespace Parser

variable {p : Parser}

/-- Taking a reading leaves the grammar as it is. -/
theorem grammar_take {α : Type} (p : Parser) (r : Reading α) : (p.take r).2.grammar = p.grammar := by
  unfold take
  split <;> rfl

/-- Taking a statement leaves the grammar as it is. -/
theorem grammar_pass (p : Parser) (r : Reading (Option Stmt)) : (p.pass r).grammar = p.grammar := by
  rw [← grammar_take p r]
  unfold pass
  rcases p.take r with ⟨_ | s, q⟩ <;> rfl

/-- Taking statement after statement leaves the grammar as it is. -/
theorem grammar_foldl_pass (rs : List (Reading (Option Stmt))) (p : Parser) :
    (rs.foldl pass p).grammar = p.grammar := by
  induction rs generalizing p with
  | nil => rfl
  | cons r rs ih => rw [List.foldl_cons, ih, grammar_pass]

/-- Expecting a token leaves the grammar as it is. -/
theorem grammar_expect (p : Parser) (kind : TokenKind) : (p.expect kind).2.grammar = p.grammar := by
  rw [expect_eq]
  split_ifs <;> rfl

/-- **A call keeps the tables of operators and powers in step.** -/
theorem consistent_perform (hp : p.grammar.Consistent) (call : Call) :
    (p.perform call).grammar.Consistent := by
  cases call with
  | withOperator op power => exact hp.withOperator op power
  | withOperand kind rule => exact hp.withOperand kind rule
  | withStatement kind rule => exact hp.withStatement kind rule
  | expect kind =>
    rw [perform, grammar_expect]
    exact hp
  | program =>
    rw [perform, program, grammar_foldl_pass]
    exact hp
  | statement =>
    rw [perform, statement, grammar_take]
    exact hp
  | expressionStatement =>
    rw [perform, expressionStatement, grammar_take]
    exact hp
  | advance | record | binding | returning | expression | primary | prefixed | grouped | operation =>
    exact hp

/-- **Whatever calls are made, a consistent grammar stays consistent.** -/
theorem consistent_run (hp : p.grammar.Consistent) (calls : List Call) :
    (p.run calls).grammar.Consistent := by
  induction calls generalizing p with
  | nil => exact hp
  | cons call calls ih => exact ih (consistent_perform hp call)

end Parser

/-- **Whatever was asked of a parser and however its grammar was changed**, the tables of operators and of
powers have the same entries, each operator at the kind that spells it, so that a climb only stops at a `;`
or where nothing ahead binds strongly enough. Every tree that is read then, on its own or in a program, fits
its tokens node by node, and no value of a binding or a return is read. -/
theorem fits_after_run (text : String) (file : Option String) (calls : List Parser.Call) :
    let p := (Parser.ofText text file).run calls
    p.grammar.Consistent ∧
    (∀ bp i, p.grammar.operatorAhead? bp ((Cursor.ofText text file).forward i) = none ↔
      (tokenAt text file (i + 1)).kind = .semicolon ∨
        ¬ bp < p.grammar.power (tokenAt text file (i + 1)).kind) ∧
    (∀ bp e, (p.read (p.grammar.expression bp)).1 = .ok e → e.WellFormed) ∧
    ∀ s ∈ p.program.1.statements, s.Fits := by
  intro p
  have hg : p.grammar.Consistent := Parser.consistent_run Grammar.consistent_standard calls
  have hc : p.cursor.Scanned := by
    obtain ⟨n, hn, -⟩ := Parser.follows_run (.ofText text file) calls
    rw [hn]
    exact (Cursor.scanned_ofText text file).forward n
  refine ⟨hg, fun bp i => ?_, fun bp e h => ?_, Grammar.fits_of_statements hg hc⟩
  · have hahead : ((Cursor.ofText text file).forward i).lookahead = tokenAt text file (i + 1) := by
      rw [← Cursor.current_advance, Cursor.advance, Cursor.forward_forward, Cursor.current_forward_ofText]
    rw [hg.operatorAhead?_eq_none_iff ((Cursor.terminated_ofText text file).forward i), hahead]
  · rcases hr : p.grammar.expression bp p.cursor with ⟨x, c'⟩
    have hx : x = .ok e := by rw [← h, Parser.read, hr]
    rw [hx] at hr
    exact Grammar.wellFormed_of_expression hg hc hr

end Prattle
