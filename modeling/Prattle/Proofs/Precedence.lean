import Prattle.Proofs.Phrases

/-!
# Operators bind as the grammar says, whatever powers it has

The powers of the binary operators can be changed freely: an operator may bind more strongly than the unary
ones, several may share a power, and one that binds with the lowest power is never taken at all. So there
are no layers of operators to go by, and reading is right because of what it knows of the token ahead.

* **Only the powers change** (`Grammar.Repowered`): such a grammar reads the same operands and the same
  operators.
* **What was read may end where it ends** (`Phrase.Reads`): the token ahead binds no more strongly than
  anything on the right spine. `Grammar.climbs_of_operand`, `Grammar.Climbs.step` and
  `Grammar.reads_of_climb` carry this through operands, operations and climbs.
* **The tree that was read is the one that the powers ask for** (`reads_repowered`), and the only one.
-/

namespace Prattle

namespace Grammar

/-! ### Changing powers -/

/-- The grammar differs from that of the language only in how strongly operators bind. -/
structure Repowered (g : Grammar) : Prop where
  operand : g.operand? = standard.operand?
  operator : g.operator? = standard.operator?
  power : ∀ kind, standard.operator? kind = none → g.power kind = .lowest

variable {g : Grammar}

/-- The grammar of the language does not differ from itself. -/
theorem repowered_standard : standard.Repowered where
  operand := rfl
  operator := rfl
  power kind h := by
    have hpower : standard.power kind = ((standard.operator? kind).map BinaryOp.power).getD .lowest := rfl
    rw [hpower, h]
    rfl

/-- Registering an operator under a power changes no more than powers. -/
theorem Repowered.withOperator (h : g.Repowered) (op : BinaryOp) (power : BindingPower) :
    (g.withOperator op power).Repowered where
  operand := h.operand
  operator := by
    funext kind
    rw [Grammar.withOperator, h.operator]
    dsimp only
    split_ifs with hkind
    · rw [hkind]
      exact (BinaryOp.ofKind?_eq_some_iff.mpr rfl).symm
    · rfl
  power kind hnone := by
    have hne : kind ≠ op.kind := (BinaryOp.kind_ne_of_ofKind?_eq_none hnone op).symm
    rw [← h.power kind hnone, Grammar.power, Grammar.withOperator, Grammar.power]
    dsimp only
    rw [if_neg hne]

/-- **Where no operator is taken**, none is ahead that binds strongly enough, or a `;` is. -/
theorem Repowered.power_le_of_none (hg : g.Repowered) {bp : BindingPower} {c : Cursor}
    (hc : c.Terminated) (h : g.operatorAhead? bp c = none) :
    c.lookahead.kind = .semicolon ∨ g.power c.lookahead.kind ≤ bp := by
  rcases Nat.lt_or_ge bp.level (g.power c.lookahead.kind).level with hlt | hle
  · -- a token that binds more strongly than anything is an operator, and so it is not the end of the text
    rcases hop : standard.operator? c.lookahead.kind with _ | op
    · rw [hg.power _ hop] at hlt
      exact absurd hlt (Nat.not_lt_zero _)
    · by_cases hsemicolon : c.lookahead.kind = .semicolon
      · exact .inl hsemicolon
      · have hend : c.advance.atEnd = false := by
          rw [Bool.eq_false_iff, ne_eq, hc.advance.atEnd_iff, Cursor.current_advance]
          intro hkind
          rw [hkind] at hop
          cases hop
        rw [operatorAhead?, if_pos ⟨hend, hsemicolon, hlt⟩, hg.operator, hop] at h
        cases h
  · exact .inr hle

/-- An operator that is taken is the one that the token ahead spells, and binds strongly enough. -/
theorem Repowered.of_operatorAhead? (hg : g.Repowered) {bp : BindingPower} {c : Cursor} {op : BinaryOp}
    (h : g.operatorAhead? bp c = some op) :
    op.kind = c.lookahead.kind ∧ bp < g.power c.lookahead.kind ∧ c.lookahead.kind ≠ .semicolon := by
  unfold operatorAhead? at h
  split_ifs at h with hcond
  rw [hg.operator] at h
  exact ⟨BinaryOp.ofKind?_eq_some_iff.mp h, hcond.2.2, hcond.2.1⟩

end Grammar

/-! ### What was read -/

/-- The phrase was read as the expression between the cursors, asked for what binds more strongly than
`bp`. -/
structure Phrase.Reads (g : Grammar) (bp : BindingPower) (s : Phrase) (e : Expr) (c c' : Cursor) :
    Prop where
  gives : s.Gives e
  tokens : c.tokens = s.tokens ++ c'.advance.tokens
  binds : s.Binds g bp
  insides : ∀ inside ∈ s.insides, inside.Binds g .lowest
  stops : c'.lookahead.kind = .semicolon ∨
    ∀ p ∈ bp :: s.rightPowers g, g.power c'.lookahead.kind ≤ p

namespace Grammar

variable {g : Grammar} {bp : BindingPower} {c c' : Cursor} {e : Expr}

/-- Every expression read where fewer than `n` tokens are left is a phrase. -/
def PhrasesBelow (g : Grammar) (n : Nat) : Prop :=
  ∀ (bp : BindingPower) (e : Expr) (c c' : Cursor), c.Terminated → c.tokens.length < n →
    g.expression bp c = ⟨.ok e, c'⟩ → ∃ s : Phrase, s.Reads g bp e c c'

/-- Fewer tokens leave fewer expressions to speak of. -/
theorem PhrasesBelow.mono {m n : Nat} (h : PhrasesBelow g n) (hle : m ≤ n) : PhrasesBelow g m :=
  fun bp e c c' hc hlt => h bp e c c' hc (Nat.lt_of_lt_of_le hlt hle)

/-- What may be at the cursor in the middle of a climb: the phrase read so far binds as it has to, and no
operator ahead binds more strongly than its right spine. -/
structure Climbs (g : Grammar) (bp : BindingPower) (s : Phrase) (e : Expr) (c : Cursor) : Prop where
  gives : s.Gives e
  binds : s.Binds g bp
  insides : ∀ inside ∈ s.insides, inside.Binds g .lowest
  stops : c.lookahead.kind = .semicolon ∨ ∀ p ∈ s.rightPowers g, g.power c.lookahead.kind ≤ p

/-- An operand that was read can be climbed from, if the expressions inside it are phrases. -/
theorem climbs_of_operand (hg : g.Repowered) (bp : BindingPower) (hc : c.Terminated)
    (hend : c.atEnd = false) (inner : PhrasesBelow g c.tokens.length)
    (h : g.operand g.expression c = ⟨.ok e, c'⟩) :
    ∃ s : Phrase, c.tokens = s.tokens ++ c'.advance.tokens ∧ g.Climbs bp s e c' := by
  have htokens := Cursor.tokens_of_not_atEnd hend
  have hadvance := Cursor.length_advance_lt_of_not_atEnd hend
  rcases operand_eq_ok h with ⟨hprimary, rfl⟩ | ⟨op, arg, hop, harg, rfl⟩ |
      ⟨c₁, hrule, hinner, hclose, rfl⟩
  · exact ⟨.leaf c'.current, htokens, .leaf hprimary, ⟨nofun, trivial⟩, nofun, .inr nofun⟩
  · obtain ⟨s, hs⟩ := inner _ _ _ _ hc.advance hadvance harg
    refine ⟨.prefixed c.current s, ?_, .prefixed hop hs.gives, ⟨nofun, hs.binds.above, hs.binds.ordered⟩,
      hs.insides, hs.stops⟩
    rw [htokens, hs.tokens]
    rfl
  · obtain ⟨s, hs⟩ := inner _ _ _ _ hc.advance hadvance hinner
    have hc₁ := terminated_of_expression hc.advance hinner
    rw [← Cursor.current_advance] at hclose
    have hend₁ := hc₁.advance.atEnd_eq_false hclose (by decide)
    rw [hg.operand] at hrule
    refine ⟨.group c.current s c₁.advance.current, ?_, .group (kind_of_grouped hrule) hs.gives hclose,
      ⟨nofun, trivial⟩, List.forall_mem_cons.mpr ⟨hs.binds, hs.insides⟩, .inr nofun⟩
    rw [htokens, hs.tokens, Cursor.tokens_of_not_atEnd hend₁, Phrase.tokens]
    simp only [List.cons_append, List.append_assoc, List.nil_append]

/-- An operation that was read can be climbed on from, if its right operand is a phrase. -/
theorem Climbs.step (hg : g.Repowered) {s : Phrase} {op : BinaryOp} (hc : c.Terminated)
    (hs : g.Climbs bp s e c) (inner : PhrasesBelow g c.tokens.length) {e' : Expr}
    (hop : g.operatorAhead? bp c = some op)
    (h : g.operation g.expression op e c.advance = ⟨.ok e', c'⟩) :
    ∃ us s', c.advance.tokens = us ++ c'.advance.tokens ∧ s'.tokens = s.tokens ++ us ∧
      g.Climbs bp s' e' c' := by
  obtain ⟨hkind, hpower, hsemicolon⟩ := hg.of_operatorAhead? hop
  have hend := atEnd_of_operatorAhead? hop
  have hadvance := Cursor.length_advance_lt_of_not_atEnd hend
  have hshort := Nat.lt_of_lt_of_le hadvance c.length_advance_le
  obtain ⟨right, hright, rfl⟩ := operation_eq_ok_iff.mp h
  obtain ⟨r, hr⟩ := inner _ _ _ _ hc.advance.advance hshort hright
  have hleft : ∀ p ∈ s.rightPowers g, g.power c.lookahead.kind ≤ p :=
    hs.stops.resolve_left hsemicolon
  rw [← Cursor.current_advance] at hkind hpower hleft
  refine ⟨c.advance.current :: r.tokens, .infixed c.advance.current s r, ?_, rfl,
    .infixed hs.gives hkind hr.gives, ⟨List.forall_mem_cons.mpr ⟨hpower, hs.binds.above⟩,
      hleft, hr.binds.above, hs.binds.ordered, hr.binds.ordered⟩,
    List.forall_mem_append.mpr ⟨hs.insides, hr.insides⟩, hr.stops⟩
  rw [Cursor.tokens_of_not_atEnd hend, hr.tokens]
  rfl

/-- **A climb ends where a phrase may end**, if the expressions it reads are phrases. -/
theorem reads_of_climb (hg : g.Repowered) {left : Expr} {s : Phrase} (hc : c.Terminated)
    (inner : PhrasesBelow g c.tokens.length) (hs : g.Climbs bp s left c)
    (h : g.climb bp left c = ⟨.ok e, c'⟩) :
    ∃ us s', c.advance.tokens = us ++ c'.advance.tokens ∧ s'.tokens = s.tokens ++ us ∧
      g.Climbs bp s' e c' ∧ (c'.lookahead.kind = .semicolon ∨ g.power c'.lookahead.kind ≤ bp) := by
  revert s
  revert inner hc h
  refine climb_induction (motive := fun left c r => c.Terminated → PhrasesBelow g c.tokens.length →
    r = ⟨.ok e, c'⟩ → ∀ {s : Phrase}, g.Climbs bp s left c → ∃ us s',
      c.advance.tokens = us ++ c'.advance.tokens ∧ s'.tokens = s.tokens ++ us ∧ g.Climbs bp s' e c' ∧
        (c'.lookahead.kind = .semicolon ∨ g.power c'.lookahead.kind ≤ bp)) ?_ ?_ ?_ left c
  · rintro left c hop hc - ⟨⟩ s hs
    exact ⟨[], s, rfl, (List.append_nil _).symm, hs, hg.power_le_of_none hc hop⟩
  · rintro left c op err c₁ - - - - ⟨⟩
  · intro left c op e₁ c₁ hop hr ih hc inner hclimb s hs
    have hc₁ := terminated_of_operation hc.advance hr
    obtain ⟨us, s₁, hus, htokens, hs₁⟩ := hs.step hg hc inner hop hr
    obtain ⟨vs, s₂, hvs, htokens', hs₂⟩ :=
      ih hc₁ (inner.mono (Nat.le_of_lt (length_operation_lt hop hr))) hclimb hs₁
    refine ⟨us ++ vs, s₂, ?_, ?_, hs₂⟩
    · rw [hus, hvs, List.append_assoc]
    · rw [htokens', htokens, List.append_assoc]

/-- All expressions are phrases of their tokens, by induction on the number of tokens left. -/
theorem phrasesBelow (hg : g.Repowered) (n : Nat) : PhrasesBelow g n := by
  induction n with
  | zero => exact fun bp e c c' hc hlt => absurd hlt (Nat.not_lt_zero _)
  | succ n ih =>
    intro bp e c c' hc hlt h
    have inner : PhrasesBelow g c.tokens.length := ih.mono (Nat.le_of_lt_succ hlt)
    obtain ⟨hend, left, c₁, hoperand, hclimb⟩ := expression_eq_ok h
    have hc₁ := terminated_of_operand hc hoperand
    have hle : c₁.tokens.length ≤ c.tokens.length := length_operand_le hoperand
    obtain ⟨s, hs, hclimbs⟩ := climbs_of_operand hg bp hc hend inner hoperand
    obtain ⟨us, s', hus, htokens, hclimbs', hahead⟩ :=
      reads_of_climb hg hc₁ (inner.mono hle) hclimbs hclimb
    refine ⟨s', hclimbs'.gives, ?_, hclimbs'.binds, hclimbs'.insides, ?_⟩
    · rw [hs, hus, htokens, List.append_assoc]
    · rcases hahead with hsemicolon | hpower
      · exact .inl hsemicolon
      · exact hclimbs'.stops.imp_right fun hright => List.forall_mem_cons.mpr ⟨hpower, hright⟩

/-- **An expression that was read is a phrase bound as the grammar says**, which may end where it ends. -/
theorem reads_of_expression (hg : g.Repowered) (hc : c.Terminated)
    (h : g.expression bp c = ⟨.ok e, c'⟩) : ∃ s : Phrase, s.Reads g bp e c c' :=
  phrasesBelow hg _ bp e c c' hc (Nat.lt_succ_self _) h

end Grammar

end Prattle
