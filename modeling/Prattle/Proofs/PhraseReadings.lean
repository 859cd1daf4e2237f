import Prattle.Proofs.Precedence

/-!
# A phrase that is bound as the grammar says is read

What was read as an expression is a phrase bound as the grammar says (`Grammar.reads_of_expression`). Here is
the converse, again for whatever powers the operators have: tokens that such a phrase is over are read as the
tree that it gives, wherever what follows may follow. Reading a phrase comes down to climbing from its tree
(`Grammar.comesDown_of_phrase`), by induction on the phrase: the first operand on its left spine is read
first, and each operator on the spine is one that the climb takes.
-/

namespace Prattle

namespace Cursor

/-- The token ahead is the first one that a step leaves, or the end token. -/
theorem lookahead_of_tokens {c : Cursor} {rest : List Token} (h : c.advance.tokens = rest) :
    c.lookahead = rest.headD c.eof := by
  rw [← current_advance, current, h]
  rfl

end Cursor

namespace Grammar

variable {g : Grammar} {bp : BindingPower} {c c' : Cursor} {e : Expr}

/-! ### The parts of an expression -/

/-- A leaf is read as an operand. -/
theorem Repowered.operand_of_primary (hg : g.Repowered) (h : c.current.primary = .ok e) :
    g.operand g.expression c = ⟨.ok e, c⟩ := by
  have hrule : g.operand? c.current.kind = some .primary := by
    rw [hg.operand]
    rcases Token.primary_eq_ok h with ⟨_, hkind, -⟩ | ⟨hkind, -⟩ | ⟨hkind, -⟩ | ⟨hkind, -⟩ <;>
      (rw [hkind]; rfl)
  rw [Grammar.operand, hrule, primary, h]

/-- A unary operator is read as an operand with the expression behind it. -/
theorem Repowered.operand_of_prefixed (hg : g.Repowered) {op : UnaryOp} (hop : op.kind = c.current.kind)
    (h : g.expression .unary c.advance = ⟨.ok e, c'⟩) :
    g.operand g.expression c =
      ⟨.ok (.unary c.current op e (c.current.span.upTo e.span)), c'⟩ := by
  have hrule : g.operand? c.current.kind = some .prefixed := by
    rw [hg.operand, ← hop]
    cases op <;> rfl
  have hsome : UnaryOp.ofKind? c.current.kind = some op := UnaryOp.ofKind?_eq_some_iff.mpr hop
  simp only [Grammar.operand, hrule, prefixed, hsome, h, Outcome.andThen_ok]

/-- An expression between parentheses is read as an operand, to its last parenthesis. -/
theorem Repowered.operand_of_grouped (hg : g.Repowered) (hopen : c.current.kind = .leftParen)
    (h : g.expression .lowest c.advance = ⟨.ok e, c'⟩) (hclose : c'.lookahead.kind = .rightParen) :
    g.operand g.expression c = ⟨.ok e, c'.advance⟩ := by
  have hrule : g.operand? c.current.kind = some .grouped := by
    rw [hg.operand, hopen]
    rfl
  have hexpect := Cursor.expect_eq_ok_iff.mpr ⟨hclose, rfl⟩
  simp only [Grammar.operand, hrule, grouped, h, Outcome.andThen_ok, hexpect]

/-- A climb stops in front of a `;` and of what binds no more strongly than it asks. -/
theorem climb_of_ahead {left : Expr}
    (h : c.lookahead.kind = .semicolon ∨ g.power c.lookahead.kind ≤ bp) :
    g.climb bp left c = ⟨.ok left, c⟩ := by
  apply climb_of_none
  unfold operatorAhead?
  refine if_neg fun hcond => ?_
  rcases h with hsemicolon | hle
  · exact hcond.2.1 hsemicolon
  · exact Nat.not_lt.mpr hle hcond.2.2

/-- **An operator ahead that binds strongly enough is taken** with its right operand. -/
theorem Repowered.climb_of_operator (hg : g.Repowered) {op : BinaryOp} {left right : Expr} (hc : c.Terminated)
    (hop : op.kind = c.advance.current.kind) (hpower : bp < g.power c.advance.current.kind)
    (h : g.expression (g.power c.advance.current.kind) c.advance.advance = ⟨.ok right, c'⟩) :
    g.climb bp left c =
      g.climb bp (.binary c.advance.current op left right (left.span.upTo right.span)) c' := by
  have hend : c.advance.atEnd = false :=
    hc.advance.atEnd_eq_false hop.symm (BinaryOp.kind_ne_of_ofKind?_eq_none rfl op)
  have hsemicolon : c.advance.current.kind ≠ .semicolon :=
    hop.symm.trans_ne (BinaryOp.kind_ne_of_ofKind?_eq_none rfl op)
  have hsome : g.operator? c.advance.current.kind = some op := by
    rw [hg.operator]
    exact BinaryOp.ofKind?_eq_some_iff.mpr hop
  have hahead : g.operatorAhead? bp c = some op := by
    rw [operatorAhead?, ← Cursor.current_advance, if_pos ⟨hend, hsemicolon, hpower⟩, hsome]
  rw [climb_of_some hahead, operation, h, Outcome.andThen_ok, Outcome.andThen_ok]

/-! ### Phrases -/

/-- Reading an expression at the cursor comes down to climbing from the tree, with the tokens `rest` left
behind it. -/
def ComesDown (g : Grammar) (bp : BindingPower) (c : Cursor) (e : Expr) (rest : List Token) : Prop :=
  ∃ n, (c.forward n).advance.tokens = rest ∧ g.expression bp c = g.climb bp e (c.forward n)

/-- What is read as an operand comes down in front of whatever is left. -/
theorem comesDown_of_operand {n : Nat} {rest : List Token} (hend : c.atEnd = false)
    (hrest : (c.forward n).advance.tokens = rest)
    (h : g.operand g.expression c = ⟨.ok e, c.forward n⟩) : g.ComesDown bp c e rest := by
  refine ⟨n, hrest, ?_⟩
  rw [expression_of_not_atEnd hend, h, Outcome.andThen_ok]

/-- Where what is left binds no more strongly than is asked, the tree is all that is read. -/
theorem ComesDown.expression_eq {rest : List Token} (h : g.ComesDown bp c e rest)
    (hstops : (rest.headD c.eof).kind = .semicolon ∨ g.power (rest.headD c.eof).kind ≤ bp) :
    ∃ n, (c.forward n).advance.tokens = rest ∧ g.expression bp c = ⟨.ok e, c.forward n⟩ := by
  obtain ⟨n, hrest, hclimb⟩ := h
  refine ⟨n, hrest, hclimb.trans (climb_of_ahead ?_)⟩
  rw [Cursor.lookahead_of_tokens hrest]
  exact hstops

/-- **Reading a phrase comes down to climbing from its tree**, where nothing that is left takes anything from
its right spine. -/
theorem comesDown_of_phrase (hg : g.Repowered) {s : Phrase} {rest : List Token} (hgives : s.Gives e)
    (hbinds : s.Binds g bp) (hinsides : ∀ inside ∈ s.insides, inside.Binds g .lowest)
    (hc : c.Terminated) (htokens : c.tokens = s.tokens ++ rest)
    (hstops : (rest.headD c.eof).kind = .semicolon ∨
      ∀ p ∈ s.rightPowers g, g.power (rest.headD c.eof).kind ≤ p) : g.ComesDown bp c e rest := by
  induction s generalizing bp c e rest with
  | leaf t =>
    cases hgives with
    | leaf primary =>
      have hcurrent := Cursor.current_of_tokens htokens
      refine comesDown_of_operand (n := 0) (Cursor.atEnd_of_tokens htokens) ?_ ?_
      · rw [Cursor.forward_zero]
        exact Cursor.tokens_advance_of_tokens htokens
      · rw [Cursor.forward_zero]
        exact hg.operand_of_primary (by rw [hcurrent, primary])
  | group l s r ih =>
    cases hgives with
    | group left inner right =>
      have htokens : c.tokens = l :: (s.tokens ++ r :: rest) := by
        rw [htokens, Phrase.tokens, List.cons_append, List.cons_append, List.append_assoc,
          List.singleton_append]
      obtain ⟨hinside, hinsides⟩ := List.forall_mem_cons.mp hinsides
      have hcurrent := Cursor.current_of_tokens htokens
      -- the `)` ends what is inside, since it binds nothing
      have hlowest : g.power r.kind = .lowest := hg.power r.kind (by rw [right]; rfl)
      have hdown := ih inner hinside hinsides hc.advance (Cursor.tokens_advance_of_tokens htokens)
        (.inr fun p _ => by
          rw [List.headD_cons, hlowest]
          exact Nat.zero_le _)
      obtain ⟨n, hrest, hread⟩ := hdown.expression_eq (.inr (Nat.le_of_eq (congrArg _ hlowest)))
      have hclose : (c.advance.forward n).lookahead.kind = .rightParen := by
        rw [Cursor.lookahead_of_tokens hrest]
        exact right
      have hoperand := hg.operand_of_grouped (by rw [hcurrent, left]) hread hclose
      rw [Cursor.advance_forward, Cursor.advance, Cursor.forward_forward] at hoperand
      rw [Cursor.advance_forward, Cursor.advance, Cursor.forward_forward] at hrest
      exact comesDown_of_operand (Cursor.atEnd_of_tokens htokens) (Cursor.tokens_advance_of_tokens hrest)
        hoperand
  | prefixed t s ih =>
    cases hgives with
    | prefixed kind operand =>
      have hcurrent := Cursor.current_of_tokens htokens
      have hpowers := hstops.imp_right List.forall_mem_cons.mp
      have hdown := ih operand hbinds.ordered.operand hinsides hc.advance
        (Cursor.tokens_advance_of_tokens htokens) (hpowers.imp_right And.right)
      obtain ⟨n, hrest, hread⟩ := hdown.expression_eq (hpowers.imp_right And.left)
      have hoperand := hg.operand_of_prefixed (by rw [hcurrent, kind]) hread
      rw [Cursor.advance_forward] at hoperand hrest
      rw [hcurrent] at hoperand
      exact comesDown_of_operand (Cursor.atEnd_of_tokens htokens) hrest hoperand
  | infixed t l r ihl ihr =>
    cases hgives with
    | @infixed _ op _ _ a b left kind right =>
      have htokens : c.tokens = l.tokens ++ t :: (r.tokens ++ rest) := by
        rw [htokens, Phrase.tokens, List.append_assoc, List.cons_append]
      obtain ⟨hinsidesl, hinsidesr⟩ := List.forall_mem_append.mp hinsides
      obtain ⟨n, hrest, hclimb⟩ := ihl left hbinds.left hinsidesl hc htokens (.inr hbinds.ordered.1)
      have hc₁ := hc.forward n
      have hcurrent := Cursor.current_of_tokens hrest
      have hpowers := hstops.imp_right List.forall_mem_cons.mp
      have hdown := ihr right hbinds.right hinsidesr hc₁.advance.advance
        (Cursor.tokens_advance_of_tokens hrest) (hpowers.imp_right And.right)
      obtain ⟨m, hrest', hread⟩ := hdown.expression_eq (hpowers.imp_right And.left)
      have hoperator : g.climb bp a (c.forward n) = _ := hg.climb_of_operator hc₁ (by rw [hcurrent, kind])
        (by rw [hcurrent]; exact hbinds.above _ List.mem_cons_self) (by rw [hcurrent]; exact hread)
      rw [hcurrent] at hoperator
      rw [Cursor.advance_forward, Cursor.advance_forward, Cursor.forward_forward] at hoperator hrest'
      exact ⟨_, hrest', hclimb.trans hoperator⟩

/-- **A phrase that is bound as the grammar says is read as the tree that it gives**, where what is left may
follow it. -/
theorem expression_of_phrase (hg : g.Repowered) {s : Phrase} {rest : List Token} (hgives : s.Gives e)
    (hbinds : s.Binds g bp) (hinsides : ∀ inside ∈ s.insides, inside.Binds g .lowest)
    (hc : c.Terminated) (htokens : c.tokens = s.tokens ++ rest)
    (hstops : (rest.headD c.eof).kind = .semicolon ∨
      ∀ p ∈ bp :: s.rightPowers g, g.power (rest.headD c.eof).kind ≤ p) :
    ∃ n, (c.forward n).advance.tokens = rest ∧ g.expression bp c = ⟨.ok e, c.forward n⟩ := by
  have hpowers := hstops.imp_right List.forall_mem_cons.mp
  have hdown := comesDown_of_phrase hg hgives hbinds hinsides hc htokens (hpowers.imp_right And.right)
  exact hdown.expression_eq (hpowers.imp_right And.left)

end Grammar

end Prattle
