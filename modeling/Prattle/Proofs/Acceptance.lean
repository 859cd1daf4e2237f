import Prattle.Proofs.Derivation
import Prattle.Proofs.Precedence

/-!
# The parser accepts exactly the grammar

* **Soundness** (`covers_of_expression`, `isProgram_of_statements`): what was read without a failure was
  derivable. An expression is a tree over the tokens that it took (`Expr.Covers`), those of the phrase that
  was read.
* **Completeness** (`expression_of_opens`, `errors_of_isProgram`): what is derivable is read without a
  failure. A reading goes on with an expression whenever it can, and a derivation may have stopped
  earlier; `Syntax.AfterExpression.opens` is why nothing is lost by that.
* **A text has no errors iff its tokens form a program** (`parse_errors_eq_nil_iff`).
-/

namespace Prattle

open Syntax

/-! ### Trees over tokens -/

/-- The tree is over exactly these tokens: a leaf over its token, an operation over its operator and the
tokens of its operands, and parentheses leave no node. -/
inductive Expr.Covers : Expr → List Token → Prop
  | leaf {t : Token} {e : Expr} (primary : t.primary = .ok e) : Covers e [t]
  | group {l r : Token} {ts : List Token} {e : Expr} (left : l.kind = .leftParen)
      (inner : Covers e ts) (right : r.kind = .rightParen) : Covers e (l :: ts ++ [r])
  | unary {t : Token} {op : UnaryOp} {ts : List Token} {e : Expr} (kind : op.kind = t.kind)
      (operand : Covers e ts) : Covers (.unary t op e ⟨t.span.start, e.span.stop⟩) (t :: ts)
  | binary {t : Token} {op : BinaryOp} {ls rs : List Token} {l r : Expr} (left : Covers l ls)
      (kind : op.kind = t.kind) (right : Covers r rs) :
      Covers (.binary t op l r ⟨l.span.start, r.span.stop⟩) (ls ++ t :: rs)

/-- A token that is read as a leaf is an atom of the grammar. -/
theorem derives_of_primary {t : Token} {e : Expr} (h : t.primary = .ok e) : Derives .atom [t] := by
  rcases Token.primary_eq_ok h with ⟨v, hkind, hvalue, -⟩ | ⟨hkind, -⟩ | ⟨hkind, -⟩ | ⟨hkind, -⟩
  · exact .number hkind (by rw [hvalue]; rfl)
  · exact .name hkind
  · exact .truth (.inl hkind)
  · exact .truth (.inr hkind)

/-- **Tokens that a tree is over form an expression.** -/
theorem Expr.Covers.derives {e : Expr} {ts : List Token} (h : e.Covers ts) :
    Derives .expression ts := by
  induction h with
  | leaf primary => exact .ofUnary (.ofAtom (derives_of_primary primary))
  | group left inner right ih => exact .ofUnary (.ofAtom (.group left ih right))
  | unary kind operand ih => exact ih.sign (mem_unaryKinds_iff.mpr ⟨_, kind⟩)
  | binary left kind right ihl ihr => exact ihl.join (mem_binaryKinds_iff.mpr ⟨_, kind⟩) ihr

/-- **A tree is over the tokens of every phrase that gives it.** -/
theorem Phrase.Gives.covers {s : Phrase} {e : Expr} (h : s.Gives e) : e.Covers s.tokens := by
  induction h with
  | leaf primary => exact .leaf primary
  | group left inner right ih => exact .group left ih right
  | prefixed kind operand ih => exact .unary kind ih
  | infixed left kind right ihl ihr => exact .binary ihl kind ihr

namespace Grammar

/-! ### Soundness for expressions -/

/-- Asked for more than sums, a phrase of the standard grammar is a unary expression: no binary operator
binds strongly enough to stand on its left spine. -/
theorem derives_unary_of_binds {s : Phrase} {e : Expr} {bp : BindingPower} (h : s.Gives e)
    (hbinds : s.Binds standard bp) (hbp : .product ≤ bp) : Derives .unary s.tokens := by
  induction h generalizing bp with
  | leaf primary => exact .ofAtom (derives_of_primary primary)
  | group left inner right => exact .ofAtom (.group left inner.covers.derives right)
  | prefixed kind operand ih =>
    exact .unary (mem_unaryKinds_iff.mpr ⟨_, kind⟩) (ih hbinds.ordered.operand (by decide))
  | @infixed t op l r a b left kind right =>
    have hpower := hbinds.above _ List.mem_cons_self
    rw [← kind, standard_power_kind] at hpower
    have hop : op.power.level ≤ BindingPower.product.level := by cases op <;> decide
    exact absurd (Nat.le_trans hop hbp) (Nat.not_le_of_lt hpower)

/-- An operand that was read is over a unary expression. -/
theorem derives_of_operand {c c' : Cursor} {e : Expr} (hc : c.Terminated) (hend : c.atEnd = false)
    (h : standard.operand standard.expression c = ⟨.ok e, c'⟩) :
    ∃ ts, c.tokens = ts ++ c'.advance.tokens ∧ Derives .unary ts := by
  obtain ⟨s, hs, hclimbs⟩ :=
    climbs_of_operand repowered_standard .product hc hend (phrasesBelow repowered_standard _) h
  exact ⟨s.tokens, hs, derives_unary_of_binds hclimbs.gives hclimbs.binds (by decide)⟩

/-- **An expression that was read is a tree over the tokens it took.** -/
theorem covers_of_expression {bp : BindingPower} {c c' : Cursor} {e : Expr} (hc : c.Terminated)
    (h : standard.expression bp c = ⟨.ok e, c'⟩) :
    ∃ ts, c.tokens = ts ++ c'.advance.tokens ∧ e.Covers ts := by
  obtain ⟨s, hs⟩ := reads_of_expression repowered_standard hc h
  exact ⟨s.tokens, hs.tokens, hs.gives.covers⟩

/-- **An expression that was read is derivable.** -/
theorem derives_of_expression {bp : BindingPower} {c c' : Cursor} {e : Expr} (hc : c.Terminated)
    (h : standard.expression bp c = ⟨.ok e, c'⟩) :
    ∃ ts, c.tokens = ts ++ c'.advance.tokens ∧ Derives .expression ts := by
  obtain ⟨ts, hts, hcovers⟩ := covers_of_expression hc h
  exact ⟨ts, hts, hcovers.derives⟩

/-! ### Soundness for statements -/

/-- What is skipped has no `;`, and ends with one or with the input; the cursor is then on that `;` or on
the end token. -/
theorem exists_skipped (c : Cursor) :
    ∃ xs stop, c.tokens = xs ++ stop ++ c.skipToSemicolon.advance.tokens ∧
      (∀ x ∈ xs, x.kind ≠ .semicolon) ∧ IsEnd stop c.skipToSemicolon.advance.tokens ∧
      c.skipToSemicolon.current = stop.headD c.eof := by
  have heof : c.skipToSemicolon.eof = c.eof := rfl
  rw [Cursor.tokens_advance, Cursor.current, heof, Cursor.tokens_skipToSemicolon]
  induction c.tokens with
  | nil => exact ⟨[], [], rfl, fun x hx => absurd hx List.not_mem_nil, .endOfInput, rfl⟩
  | cons t ts ih =>
    by_cases ht : t.kind = .semicolon
    · rw [List.dropWhile_cons_of_neg (by simpa using ht)]
      exact ⟨[], [t], rfl, fun x hx => absurd hx List.not_mem_nil, .semicolon ht, rfl⟩
    · rw [List.dropWhile_cons_of_pos (by simpa using ht)]
      obtain ⟨xs, stop, hxs, hskipped, hstop, hlast⟩ := ih
      refine ⟨t :: xs, stop, ?_, List.forall_mem_cons.mpr ⟨ht, hskipped⟩, hstop, hlast⟩
      rw [List.cons_append, List.cons_append, ← hxs]

/-- What a binding reads is a statement of the grammar, up to the token behind it. -/
theorem isStmt_of_binding {c c' : Cursor} {s : Stmt} (hc : c.Terminated) (hend : c.atEnd = false)
    (hkind : c.current.kind = .letWord) (h : c.binding = ⟨.ok s, c'⟩) :
    ∃ ts, c.tokens = ts ++ c'.advance.tokens ∧ IsStmt ts c'.advance.tokens := by
  obtain ⟨hname, hassign, rfl, -⟩ := Cursor.binding_eq_ok_iff.mp h
  rw [← Cursor.current_advance] at hname hassign
  have hend₁ := hc.advance.atEnd_eq_false hname (by decide)
  have hend₂ := hc.advance.advance.atEnd_eq_false hassign (by decide)
  -- the `=` is where the skipping starts, and is no `;` itself
  have hstart : c.advance.advance.skipToSemicolon = c.advance.advance.advance.skipToSemicolon :=
    Cursor.skipToSemicolon_of_ne hend₂ (by rw [hassign]; decide)
  obtain ⟨xs, stop, hxs, hskipped, hstop, -⟩ := exists_skipped c.advance.advance.advance
  rw [hstart]
  refine ⟨_, ?_, .binding hkind hname hassign hskipped hstop⟩
  rw [Cursor.tokens_of_not_atEnd hend, Cursor.tokens_of_not_atEnd hend₁,
    Cursor.tokens_of_not_atEnd hend₂, hxs]
  rfl

/-- **A statement that was read without a failure is derivable**, in front of what is left. -/
theorem isStmt_of_statement {c : Cursor} (hc : c.Terminated) (hend : c.atEnd = false)
    (h : (standard.statement c).failure? = none) :
    ∃ ts, c.tokens = ts ++ (standard.statement c).cursor.advance.tokens ∧
      IsStmt ts (standard.statement c).cursor.advance.tokens := by
  rcases hrule : standard.statement? c.current.kind with _ | rule
  · rcases hr : standard.expression .lowest c with ⟨err | e, c'⟩
    · rw [statement_of_expression_error hrule hr] at h
      cases h
    · rw [statement_of_expression_ok hrule hr]
      obtain ⟨ts, hts, hexpr⟩ := derives_of_expression hc hr
      have hc' := terminated_of_expression hc hr
      by_cases hahead : c'.lookahead.kind = .semicolon
      · rw [Cursor.passSemicolon_of_semicolon hahead]
        rw [← Cursor.current_advance] at hahead
        have hend' := hc'.advance.atEnd_eq_false hahead (by decide)
        refine ⟨_, ?_, .terminated hexpr hahead⟩
        rw [hts, Cursor.tokens_of_not_atEnd hend', List.append_assoc, List.singleton_append]
      · rw [Cursor.passSemicolon_of_ne hahead]
        exact ⟨ts, hts, .expression hexpr⟩
  · rcases hr : ruleStatement rule c with ⟨err | s, c'⟩
    · rw [statement_of_rule_error hrule hr] at h
      cases h
    · rw [statement_of_rule_ok hrule hr]
      rcases standard_statement?_eq_some hrule with ⟨hkind, rfl⟩ | ⟨hkind, rfl⟩
      · exact isStmt_of_binding hc hend hkind hr
      · cases hr
        obtain ⟨xs, stop, hxs, hskipped, hstop, -⟩ := exists_skipped c.advance
        refine ⟨_, ?_, .returning hkind hskipped hstop⟩
        rw [Cursor.tokens_of_not_atEnd hend, hxs]
        rfl

/-- **What was read without a failure is a program.** -/
theorem isProgram_of_statements {c : Cursor} (hc : c.Terminated)
    (h : Reading.errors (standard.statements c) = []) : IsProgram c.tokens := by
  induction c using standard.statements_induction with
  | atEnd c hend =>
    rw [List.isEmpty_iff.mp hend]
    exact .nil
  | statement c hend ih =>
    rw [statements_of_not_atEnd hend, Reading.errors_cons, List.append_eq_nil_iff] at h
    obtain ⟨hfirst, hmore⟩ := h
    have hnone : (standard.statement c).failure? = none := by
      simpa [Option.toList_eq_nil_iff] using hfirst
    obtain ⟨ts, hts, hstmt⟩ := isStmt_of_statement hc hend hnone
    rw [hts]
    exact .cons hstmt (ih (terminated_after_statement hc) hmore)

/-! ### Completeness for expressions -/

variable {X : List Token → Prop}

/-- What is in `X` and starts with a binary operator opens `X` without the operator, so a reading may
take every operator ahead. -/
def Greedy (X : List Token → Prop) : Prop :=
  ∀ {t : Token} {rest : List Token}, t.kind ∈ binaryKinds → X (t :: rest) → Opens X rest

/-- Whether an operator is ahead of a derivation or may be ahead of what follows it, it can be taken. -/
theorem Greedy.opens_of_continues (hX : Greedy X) {t : Token} {rest : List Token}
    (hop : t.kind ∈ binaryKinds) (h : Continues X (t :: rest)) : Opens X rest := by
  generalize hwhole : t :: rest = whole at h
  rcases h with hstop | @⟨_, us, rest', _, operand, more⟩
  · rw [← hwhole] at hstop
    exact hX hop hstop
  · obtain ⟨-, rfl⟩ := List.cons.inj hwhole
    exact ⟨us, rest', rfl, operand, more⟩

/-- Inside a group, exactly the rest from its `)` on follows the expression. -/
theorem greedy_closing {r : Token} {rest : List Token} (hr : r.kind = .rightParen) :
    Greedy (· = r :: rest) := by
  intro t rest' hop heq
  obtain ⟨rfl, -⟩ := List.cons.inj heq
  rw [hr] at hop
  exact absurd hop (by decide)

/-- With no operator ahead, nothing is left of an expression. -/
theorem stopped_of_continues {c : Cursor} (hc : c.Terminated)
    (hnone : standard.operatorAhead? .lowest c = none) (h : Continues X c.advance.tokens) :
    X c.advance.tokens := by
  generalize hwhole : c.advance.tokens = whole at h
  rcases h with hstop | @⟨t, us, rest, kind, -, -⟩
  · exact hstop
  · obtain ⟨op, kind⟩ := mem_binaryKinds_iff.mp kind
    have hpower : .lowest < op.power := by cases op <;> decide
    rw [← Cursor.current_of_tokens hwhole, Cursor.current_advance] at kind
    exact absurd hpower ((standard_operatorAhead?_eq_none_iff hc).mp hnone op kind)

/-- Where fewer than `n` tokens are left, every expression that is open is read. -/
def ReadsBelow (n : Nat) : Prop :=
  ∀ (X : List Token → Prop) (bp : BindingPower) (c : Cursor), Greedy X → c.Terminated →
    c.tokens.length < n → Opens X c.tokens →
    ∃ e c', standard.expression bp c = ⟨.ok e, c'⟩ ∧ Continues X c'.advance.tokens

/-- Fewer tokens leave fewer expressions to speak of. -/
theorem ReadsBelow.mono {m n : Nat} (h : ReadsBelow n) (hle : m ≤ n) : ReadsBelow m :=
  fun X bp c hX hc hlt => h X bp c hX hc (Nat.lt_of_lt_of_le hlt hle)

/-- An atom is a token that is an operand of its own, or a group. -/
theorem atom_cases {ts : List Token} (h : Derives .atom ts) :
    (∃ t e, ts = [t] ∧ standard.operand? t.kind = some .primary ∧ t.primary = .ok e) ∨
    (∃ l us r, ts = l :: us ++ [r] ∧ l.kind = .leftParen ∧ Derives .expression us ∧
      r.kind = .rightParen) := by
  rcases h with @⟨t, kind⟩ | @⟨t, kind, value⟩ | @⟨t, kind⟩ | @⟨l, r, us, left, inner, right⟩
  · refine .inl ⟨t, .identifier (.ofToken t), rfl, by rw [kind]; rfl, ?_⟩
    rw [Token.primary, kind]
  · obtain ⟨v, hv⟩ := Option.isSome_iff_exists.mp value
    refine .inl ⟨t, .integer t v t.span, rfl, by rw [kind]; rfl, ?_⟩
    simp only [Token.primary, kind, hv]
  · rcases kind with kind | kind
    · refine .inl ⟨t, .boolean t true t.span, rfl, by rw [kind]; rfl, ?_⟩
      rw [Token.primary, kind]
    · refine .inl ⟨t, .boolean t false t.span, rfl, by rw [kind]; rfl, ?_⟩
      rw [Token.primary, kind]
  · exact .inr ⟨l, us, r, rfl, left, inner, right⟩

/-- A token that is an atom is read as an operand. -/
theorem operand_of_primary {inner : BindingPower → Cursor → Outcome Expr} {c : Cursor} {e : Expr}
    (hrule : standard.operand? c.current.kind = some .primary) (h : c.current.primary = .ok e) :
    standard.operand inner c = ⟨.ok e, c⟩ := by
  simp only [operand, hrule, primary, h]

/-- A group of the grammar is read as an operand, to its last parenthesis. -/
theorem operand_of_group {c : Cursor} {l r : Token} {ts rest : List Token} (hc : c.Terminated)
    (inner : ReadsBelow c.tokens.length) (htokens : c.tokens = l :: ts ++ [r] ++ rest)
    (left : l.kind = .leftParen) (hexpr : Derives .expression ts) (right : r.kind = .rightParen) :
    ∃ e c', standard.operand standard.expression c = ⟨.ok e, c'⟩ ∧ c'.advance.tokens = rest := by
  rw [List.append_assoc, List.cons_append, List.singleton_append] at htokens
  have hlt := Cursor.length_advance_lt_of_not_atEnd (Cursor.atEnd_of_tokens htokens)
  have hopens : Opens (· = r :: rest) c.advance.tokens := by
    rw [Cursor.tokens_advance_of_tokens htokens]
    exact hexpr.opens (.stop rfl)
  obtain ⟨e, c₁, hinner, hcontinues⟩ := inner _ .lowest _ (greedy_closing right) hc.advance hlt hopens
  have hc₁ := terminated_of_expression hc.advance hinner
  have hrest := stopped_of_continues hc₁ (operatorAhead?_of_expression hinner) hcontinues
  have hclose : c₁.lookahead.kind = .rightParen := by
    rw [← Cursor.current_advance, Cursor.current_of_tokens hrest]
    exact right
  have hrule : standard.operand? c.current.kind = some .grouped := by
    rw [Cursor.current_of_tokens htokens, left]
    rfl
  refine ⟨e, c₁.advance, ?_, Cursor.tokens_advance_of_tokens hrest⟩
  simp only [operand, hrule, grouped, hinner, Outcome.andThen_ok,
    Cursor.expect_eq_ok_iff.mpr ⟨hclose, rfl⟩]

/-- Every operand that is open is read. -/
theorem operand_of_opens {c : Cursor} (hX : Greedy X) (hc : c.Terminated)
    (inner : ReadsBelow c.tokens.length) (h : Opens X c.tokens) :
    ∃ e c', standard.operand standard.expression c = ⟨.ok e, c'⟩ ∧
      Continues X c'.advance.tokens := by
  obtain ⟨us, rest, htokens, hunary, hcontinues⟩ := h
  rcases hunary with _ | _ | _ | _ | hatom | @⟨t, ts, kind, operand⟩
  · rcases atom_cases hatom with ⟨t, e, rfl, hrule, hprimary⟩ | ⟨l, ts, r, rfl, left, hexpr, right⟩
    · have hcurrent : c.current = t := Cursor.current_of_tokens htokens
      refine ⟨e, c, operand_of_primary (by rwa [hcurrent]) (by rwa [hcurrent]), ?_⟩
      rwa [Cursor.tokens_advance_of_tokens htokens]
    · obtain ⟨e, c', hread, hrest⟩ := operand_of_group hc inner htokens left hexpr right
      exact ⟨e, c', hread, hrest ▸ hcontinues⟩
  · have hcurrent : c.current = t := Cursor.current_of_tokens htokens
    have htail : c.advance.tokens = ts ++ rest := Cursor.tokens_advance_of_tokens htokens
    have hlt := Cursor.length_advance_lt_of_not_atEnd (Cursor.atEnd_of_tokens htokens)
    obtain ⟨e, c', hread, hcontinues'⟩ :=
      inner X .unary c.advance hX hc.advance hlt ⟨ts, rest, htail, operand, hcontinues⟩
    obtain ⟨op, kind⟩ := mem_unaryKinds_iff.mp kind
    have hrule : standard.operand? c.current.kind = some .prefixed := by
      rw [hcurrent, ← kind]
      cases op <;> rfl
    have hop : UnaryOp.ofKind? c.current.kind = some op := by
      rw [hcurrent]
      exact UnaryOp.ofKind?_eq_some_iff.mpr kind
    refine ⟨.unary c.current op e (c.current.span.upTo e.span), c', ?_, hcontinues'⟩
    simp only [Grammar.operand, hrule, prefixed, hop, hread, Outcome.andThen_ok]

/-- **A climb takes every operator that a derivation goes on with, or that it may go on with.** -/
theorem climb_of_continues {n : Nat} (inner : ReadsBelow n) {bp : BindingPower} (left : Expr)
    {c : Cursor} (hX : Greedy X) (hc : c.Terminated) (hle : c.tokens.length ≤ n)
    (h : Continues X c.advance.tokens) :
    ∃ e c', standard.climb bp left c = ⟨.ok e, c'⟩ ∧ Continues X c'.advance.tokens := by
  generalize hm : c.tokens.length = m
  induction m using Nat.strongRecOn generalizing left c with
  | ind m ih =>
    subst hm
    rcases hop : standard.operatorAhead? bp c with _ | op
    · exact ⟨left, c, climb_of_none hop, h⟩
    · obtain ⟨hkind, -⟩ := (standard_operatorAhead?_eq_some_iff hc).mp hop
      rw [← Cursor.current_advance] at hkind
      have hend := atEnd_of_operatorAhead? hop
      rw [Cursor.tokens_of_not_atEnd hend] at h
      have hlt := Cursor.length_advance_lt_of_not_atEnd hend
      have hadvance := c.length_advance_le
      obtain ⟨right, c', hright, hmore⟩ := inner X (standard.power c.advance.current.kind) _ hX
        hc.advance.advance (by omega)
        (hX.opens_of_continues (mem_binaryKinds_iff.mpr ⟨op, hkind⟩) h)
      have hread : standard.operation standard.expression op left c.advance = ⟨.ok _, c'⟩ :=
        operation_eq_ok_iff.mpr ⟨right, hright, rfl⟩
      have hshort : c'.tokens.length < c.tokens.length := length_operation_lt hop hread
      have hc' := terminated_of_operation hc.advance hread
      rw [climb_of_some hop, hread, Outcome.andThen_ok]
      exact ih _ hshort _ hc' (by omega) hmore rfl

/-- Every expression that is open is read, by induction on the number of tokens left. -/
theorem readsBelow (n : Nat) : ReadsBelow n := by
  induction n with
  | zero =>
    intro X bp c hX hc hlt
    exact absurd hlt (Nat.not_lt_zero _)
  | succ n ih =>
    intro X bp c hX hc hlt h
    have inner : ReadsBelow c.tokens.length := ih.mono (Nat.le_of_lt_succ hlt)
    have hend : c.atEnd = false := by
      obtain ⟨us, rest, htokens, hunary, -⟩ := h
      obtain ⟨t, us', rfl, -⟩ := hunary.exists_cons
      exact Cursor.atEnd_of_tokens htokens
    obtain ⟨left, c₁, hoperand, hcontinues⟩ := operand_of_opens hX hc inner h
    have hc₁ := terminated_of_operand hc hoperand
    have hle : c₁.tokens.length ≤ c.tokens.length := length_operand_le hoperand
    rw [expression_of_not_atEnd hend, hoperand, Outcome.andThen_ok]
    exact climb_of_continues inner left hX hc₁ hle hcontinues

/-- **A list that starts with an expression is read so far**, and what is left may follow it. -/
theorem expression_of_opens {c : Cursor} (hX : Greedy X) (hc : c.Terminated)
    (h : Opens X c.tokens) :
    ∃ e c', standard.expression .lowest c = ⟨.ok e, c'⟩ ∧ X c'.advance.tokens := by
  obtain ⟨e, c', hread, hcontinues⟩ := readsBelow _ X .lowest c hX hc (Nat.lt_succ_self _) h
  have hc' := terminated_of_expression hc hread
  exact ⟨e, c', hread, stopped_of_continues hc' (operatorAhead?_of_expression hread) hcontinues⟩

/-! ### Completeness for statements -/

/-- **Skipping stops where a derivation says that it does.** -/
theorem tokens_advance_skipToSemicolon {c : Cursor} {xs stop rest : List Token}
    (htokens : c.tokens = xs ++ stop ++ rest) (hskipped : ∀ x ∈ xs, x.kind ≠ .semicolon)
    (hstop : IsEnd stop rest) : c.skipToSemicolon.advance.tokens = rest := by
  rw [Cursor.tokens_advance, Cursor.tokens_skipToSemicolon, htokens, List.append_assoc,
    List.dropWhile_append_of_pos (by simpa using hskipped)]
  rcases hstop with @⟨t, rest, hkind⟩ | _
  · rw [List.singleton_append, List.dropWhile_cons_of_neg (by simpa using hkind)]
    rfl
  · rfl

/-- After an expression statement, too, a reading may take every operator ahead. -/
theorem greedy_afterExpression : Greedy AfterExpression :=
  fun hop h => h.opens hop

/-- After an expression statement with its `;`, a program is left. -/
theorem isProgram_of_afterExpression {c : Cursor} (hc : c.Terminated)
    (h : AfterExpression c.advance.tokens) : IsProgram c.passSemicolon.advance.tokens := by
  by_cases hahead : c.lookahead.kind = .semicolon
  · rw [Cursor.passSemicolon_of_semicolon hahead]
    rw [← Cursor.current_advance] at hahead
    have htokens := Cursor.tokens_of_not_atEnd (hc.advance.atEnd_eq_false hahead (by decide))
    rw [htokens] at h
    rcases h with hprogram | ⟨t, rest, heq, -, hprogram⟩
    · exact absurd hahead hprogram.head_ne_semicolon
    · obtain ⟨-, rfl⟩ := List.cons.inj heq
      exact hprogram
  · rw [Cursor.passSemicolon_of_ne hahead]
    rcases h with hprogram | ⟨t, rest, heq, hkind, -⟩
    · exact hprogram
    · rw [← Cursor.current_advance, Cursor.current_of_tokens heq] at hahead
      exact absurd hkind hahead

/-- **A program's first statement is read without a failure**, and a program is left. -/
theorem statement_of_isProgram {c : Cursor} (hc : c.Terminated) (hend : c.atEnd = false)
    (h : IsProgram c.tokens) :
    (standard.statement c).failure? = none ∧
      IsProgram (standard.statement c).cursor.advance.tokens := by
  rw [Cursor.tokens_of_not_atEnd hend] at h
  rcases h.cons_cases with ⟨hkind, name, assign, xs, stop, rest, htokens, isName, isAssign,
      hskipped, hstop, hrest⟩ | ⟨hkind, xs, stop, rest, htokens, hskipped, hstop, hrest⟩ | hopens
  · have hrule : standard.statement? c.current.kind = some .binding := by rw [hkind]; rfl
    have htokens₁ : c.advance.advance.tokens = assign :: xs ++ stop ++ rest :=
      Cursor.tokens_advance_of_tokens htokens
    have hname : c.lookahead.kind = .identifier := by
      rw [← Cursor.current_advance, Cursor.current_of_tokens htokens]
      exact isName
    have hassign : c.advance.lookahead.kind = .assign := by
      rw [← Cursor.current_advance, Cursor.current_of_tokens htokens₁]
      exact isAssign
    have hread : ruleStatement .binding c = ⟨.ok _, _⟩ :=
      Cursor.binding_eq_ok_iff.mpr ⟨hname, hassign, rfl, rfl⟩
    rw [statement_of_rule_ok hrule hread]
    refine ⟨rfl, ?_⟩
    rwa [tokens_advance_skipToSemicolon htokens₁ _ hstop]
    exact List.forall_mem_cons.mpr ⟨by rw [isAssign]; decide, hskipped⟩
  · have hrule : standard.statement? c.current.kind = some .returning := by rw [hkind]; rfl
    have hread : ruleStatement .returning c = ⟨.ok _, _⟩ := rfl
    rw [statement_of_rule_ok hrule hread]
    refine ⟨rfl, ?_⟩
    rwa [tokens_advance_skipToSemicolon htokens hskipped hstop]
  · have hrule : standard.statement? c.current.kind = none := by
      have hnone : ∀ kind ∈ operandKinds, standard.statement? kind = none := by decide
      exact hnone _ hopens.head_mem
    rw [← Cursor.tokens_of_not_atEnd hend] at hopens
    obtain ⟨e, c', hread, hafter⟩ := expression_of_opens greedy_afterExpression hc hopens
    have hc' := terminated_of_expression hc hread
    rw [statement_of_expression_ok hrule hread]
    exact ⟨rfl, isProgram_of_afterExpression hc' hafter⟩

/-- **A program is read without a failure.** -/
theorem errors_of_isProgram {c : Cursor} (hc : c.Terminated) (h : IsProgram c.tokens) :
    Reading.errors (standard.statements c) = [] := by
  induction c using standard.statements_induction with
  | atEnd c hend =>
    rw [statements_of_atEnd hend]
    rfl
  | statement c hend ih =>
    obtain ⟨hnone, hrest⟩ := statement_of_isProgram hc hend h
    rw [statements_of_not_atEnd hend, Reading.errors_cons, hnone]
    exact ih (terminated_after_statement hc) hrest

end Grammar

/-- **A text has no errors iff its tokens without the end token form a program**, by whatever
derivation. -/
theorem parse_errors_eq_nil_iff (text : String) (file : Option String) :
    (parse text file).2 = [] ↔ IsProgram (tokenize text file).dropLast := by
  have hc := Cursor.terminated_ofText text file
  have htokens : (tokenize text file).dropLast = (Cursor.ofText text file).tokens :=
    List.dropLast_concat
  rw [parse_eq, htokens]
  constructor
  · intro h
    exact Grammar.isProgram_of_statements hc h
  · intro h
    exact Grammar.errors_of_isProgram hc h

/-- `a -b` is a program in two ways, and `a )` in none. -/
example : (parse "a -b" none).2 = [] ∧ (parse "a )" none).2 ≠ [] := by decide

end Prattle
