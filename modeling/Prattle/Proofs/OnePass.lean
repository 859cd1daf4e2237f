import Prattle.Proofs.Changes

/-!
# A text is read in one pass

`Grammar.expression` is defined with a count that bounds how deeply expressions nest, and it asks whether the
text has ended. Here reading is described without either: `Grammar.Runs` has one rule for each thing that can
happen while an expression is read, decides by the kinds of the current token and of the next one alone, and
only ever moves by a step. `Grammar.Iterates` and `Grammar.Drives` say the same of a statement and of a
program. A derivation is thus a reading that comes to an end, and the index of a cursor is the number of steps
that led to it.

* **What is derived is what is read** (`Grammar.Runs.result_eq`, `Grammar.Iterates.reading_eq`,
  `Grammar.Drives.readings_eq`).
* **Reading never steps past the end token** (`Grammar.Runs.reaches`, `Grammar.Iterates.reaches`), and nests
  no deeper than there are tokens left (`Grammar.Runs.depth_le`).
* **Every reading comes to an end** (`Grammar.exists_runs`, `Grammar.exists_drives`), by whatever rules, as long
  as no group starts at the end token. A group that starts there never ends (`Grammar.not_runs_of_grouped`).
* The bounds on a whole program are `program_in_one_pass`.
-/

namespace Prattle

/-! ### Steps up to the end token -/

namespace Cursor

variable {c c' c'' : Cursor}

/-- The second cursor is some steps on, and none of them left the end token. -/
def Reaches (c c' : Cursor) : Prop :=
  ∃ k ≤ c.tokens.length, c' = c.forward k

/-- Every cursor is reached without a step. -/
theorem Reaches.refl (c : Cursor) : c.Reaches c :=
  ⟨0, Nat.zero_le _, c.forward_zero.symm⟩

/-- What is reached from a cursor that is reached is reached. -/
theorem Reaches.trans (h : c.Reaches c') (h' : c'.Reaches c'') : c.Reaches c'' := by
  obtain ⟨k, hk, rfl⟩ := h
  obtain ⟨l, hl, rfl⟩ := h'
  rw [tokens_forward, List.length_drop] at hl
  exact ⟨k + l, by omega, forward_forward c k l⟩

/-- From a token, the next one is reached. -/
theorem reaches_advance (h : c.atEnd = false) : c.Reaches c.advance :=
  ⟨1, Nat.lt_of_le_of_lt (Nat.zero_le _) (length_advance_lt_of_not_atEnd h), rfl⟩

/-- The tokens that are reached are those of the same text. -/
theorem Reaches.terminated (h : c.Reaches c') (hc : c.Terminated) : c'.Terminated := by
  obtain ⟨k, -, rfl⟩ := h
  exact hc.forward k

/-- Where a cursor is reached, no more tokens are left. -/
theorem Reaches.length_le (h : c.Reaches c') : c'.tokens.length ≤ c.tokens.length := by
  obtain ⟨k, -, rfl⟩ := h
  rw [tokens_forward, List.length_drop]
  exact Nat.sub_le _ _

/-- **Steps taken and tokens left add up to the same number**, up to the end token. -/
theorem Reaches.index_add_length (h : c.Reaches c') :
    c'.index + c'.tokens.length = c.index + c.tokens.length := by
  obtain ⟨k, hk, rfl⟩ := h
  rw [index_forward, tokens_forward, List.length_drop]
  omega

/-- At the end no token is left, and nowhere else. -/
theorem atEnd_iff_length : c.atEnd = true ↔ c.tokens.length = 0 := by
  rw [atEnd, List.isEmpty_iff_length_eq_zero]

/-- A step from the end stays there. -/
theorem atEnd_advance (h : c.atEnd = true) : c.advance.atEnd = true := by
  rw [atEnd_iff_length] at h ⊢
  rw [tokens_advance, List.length_tail, h]

/-- **Behind a text of `n` tokens there is one step too many**: from up to the end token a step leads up to the
end token, or it leaves it. -/
theorem Reaches.index_advance {n : Nat} (h : c.Reaches c') (hn : c.index + c.tokens.length = n) :
    c'.advance.index + c'.advance.tokens.length = n ∨
      c'.advance.atEnd = true ∧ c'.advance.index = n + 1 := by
  have hlast := h.index_add_length
  rcases hend : c'.atEnd with _ | _
  · rw [(reaches_advance hend).index_add_length]
    exact .inl (hlast.trans hn)
  · refine .inr ⟨atEnd_advance hend, ?_⟩
    rw [atEnd_iff_length] at hend
    rw [Cursor.index_advance]
    omega

/-- What two readings in a row reach is reached step by step. -/
theorem Reaches.andThen {α β : Type} {first : Outcome α} {next : α → Cursor → Outcome β}
    (h : c.Reaches first.cursor)
    (hnext : ∀ a, first.cursor.Reaches (next a first.cursor).cursor) :
    c.Reaches (first.andThen next).cursor := by
  obtain ⟨_ | a, c'⟩ := first
  · exact h
  · exact h.trans (hnext a)

/-- In front of a token of a kind of its own there are two steps to take. -/
theorem Terminated.atEnd_eq_false_of_lookahead (hc : c.Terminated) {kind : TokenKind}
    (hkind : c.lookahead.kind = kind) (hne : kind ≠ .endOfInput) :
    c.atEnd = false ∧ c.advance.atEnd = false := by
  rw [← current_advance] at hkind
  have hnext := hc.advance.atEnd_eq_false hkind hne
  refine ⟨?_, hnext⟩
  rcases hend : c.atEnd with _ | _
  · rfl
  · rw [atEnd_advance hend] at hnext
    cases hnext

/-- An expected token that is there is one step ahead, unless it is the end. -/
theorem Terminated.reaches_of_expect (hc : c.Terminated) {kind : TokenKind} (hne : kind ≠ .endOfInput)
    (h : c.expect kind = .ok c') : c.Reaches c' := by
  obtain ⟨hkind, rfl⟩ := expect_eq_ok_iff.mp h
  exact reaches_advance (hc.atEnd_eq_false_of_lookahead hkind hne).1

end Cursor

/-! ### Expressions -/

namespace Grammar

/-- What is to be read at a cursor. -/
inductive Task where
  /-- An expression whose outermost operators bind more strongly than the power. -/
  | expression (bp : BindingPower)
  /-- The operand that an expression starts with. -/
  | operand
  /-- The operators ahead that bind more strongly than the power, with their right operands. -/
  | climb (bp : BindingPower) (left : Expr)

/-- The expression that was read, behind a `)` that closes it. -/
def closed (e : Expr) (c : Cursor) : Outcome Expr :=
  match c.expect .rightParen with
  | .ok c' => ⟨.ok e, c'⟩
  | .error err => ⟨.error err, c⟩

/-- The task comes to an end with the outcome, in at most `depth` expressions inside one another. -/
inductive Runs (g : Grammar) : Task → Cursor → Nat → Outcome Expr → Prop
  /-- The operand fails, and the expression with it. -/
  | failed {bp : BindingPower} {c c' : Cursor} {d : Nat} {err : SyntaxError}
      (operand : Runs g .operand c d ⟨.error err, c'⟩) :
      Runs g (.expression bp) c (d + 1) ⟨.error err, c'⟩
  /-- The operand is read, and then the operators ahead. -/
  | expression {bp : BindingPower} {c c' : Cursor} {d d' : Nat} {left : Expr} {r : Outcome Expr}
      (operand : Runs g .operand c d ⟨.ok left, c'⟩) (climb : Runs g (.climb bp left) c' d' r) :
      Runs g (.expression bp) c (max d d' + 1) r
  /-- No operand starts with a token of the kind. -/
  | unknown {c : Cursor} (rule : g.operand? c.current.kind = none) :
      Runs g .operand c 0 ⟨.error c.current.noOperand, c⟩
  /-- The token alone is the operand, if it can be. -/
  | primary {c : Cursor} (rule : g.operand? c.current.kind = some .primary) :
      Runs g .operand c 0 ⟨c.current.primary, c⟩
  /-- The token is read as a unary operator and is none. -/
  | bare {c : Cursor} (rule : g.operand? c.current.kind = some .prefixed)
      (none : UnaryOp.ofKind? c.current.kind = none) :
      Runs g .operand c 0 ⟨.error c.current.noOperand, c⟩
  /-- The token is a unary operator, and an expression follows. -/
  | prefixed {c : Cursor} {d : Nat} {op : UnaryOp} {r : Outcome Expr}
      (rule : g.operand? c.current.kind = some .prefixed)
      (some : UnaryOp.ofKind? c.current.kind = some op)
      (inner : Runs g (.expression .unary) c.advance d r) :
      Runs g .operand c d
        (r.andThen fun e c' => ⟨.ok (.unary c.current op e (c.current.span.upTo e.span)), c'⟩)
  /-- The token opens a group. -/
  | grouped {c : Cursor} {d : Nat} {r : Outcome Expr}
      (rule : g.operand? c.current.kind = some .grouped)
      (inner : Runs g (.expression .lowest) c.advance d r) : Runs g .operand c d (r.andThen closed)
  /-- A `;` is ahead, or nothing that binds strongly enough. -/
  | stop {bp : BindingPower} {left : Expr} {c : Cursor}
      (ahead : c.lookahead.kind = .semicolon ∨ ¬ bp < g.power c.lookahead.kind) :
      Runs g (.climb bp left) c 0 ⟨.ok left, c⟩
  /-- What is ahead binds strongly enough and is no operator. -/
  | idle {bp : BindingPower} {left : Expr} {c : Cursor} (ahead : c.lookahead.kind ≠ .semicolon)
      (power : bp < g.power c.lookahead.kind) (none : g.operator? c.lookahead.kind = none) :
      Runs g (.climb bp left) c 0 ⟨.ok left, c⟩
  /-- The right operand of the operator ahead fails. -/
  | broken {bp : BindingPower} {left : Expr} {c c' : Cursor} {d : Nat} {op : BinaryOp} {err : SyntaxError}
      (ahead : c.lookahead.kind ≠ .semicolon) (power : bp < g.power c.lookahead.kind)
      (some : g.operator? c.lookahead.kind = some op)
      (inner : Runs g (.expression (g.power c.lookahead.kind)) c.advance.advance d ⟨.error err, c'⟩) :
      Runs g (.climb bp left) c d ⟨.error err, c'⟩
  /-- The right operand of the operator ahead is read, and then the next operators. -/
  | operation {bp : BindingPower} {left right : Expr} {c c' : Cursor} {d d' : Nat} {op : BinaryOp}
      {r : Outcome Expr}
      (ahead : c.lookahead.kind ≠ .semicolon) (power : bp < g.power c.lookahead.kind)
      (some : g.operator? c.lookahead.kind = some op)
      (inner : Runs g (.expression (g.power c.lookahead.kind)) c.advance.advance d ⟨.ok right, c'⟩)
      (climb : Runs g
        (.climb bp (.binary c.lookahead op left right (left.span.upTo right.span))) c' d' r) :
      Runs g (.climb bp left) c (max d d') r

/-- What the task gives. -/
def Task.reading (g : Grammar) : Task → Cursor → Outcome Expr
  | expression bp => g.expression bp
  | operand => g.operand g.expression
  | climb bp left => g.climb bp left

/-- How deeply expressions nest at most where `n` tokens are left. -/
def Task.depth (n : Nat) : Task → Nat
  | expression _ => n + 1
  | operand | climb .. => n

section expressions

variable {g : Grammar} {task : Task} {bp : BindingPower} {c c' : Cursor} {d : Nat} {r : Outcome Expr}

/-- **A group that starts at the end token never ends**: no operand and no expression is derived there. -/
theorem not_runs_of_grouped (hrule : g.operand? .endOfInput = some .grouped) (hc : c.Terminated)
    (hend : c.atEnd = true) (h : g.Runs task c d r) : ∃ bp left, task = .climb bp left := by
  have hkind := hc.atEnd_iff.mp hend
  -- A derivation at the end token has another one there inside it.
  induction h with
  | failed _ ih | expression _ _ ih =>
    obtain ⟨bp, left, htask⟩ := ih hc hend hkind
    cases htask
  | grouped _ _ ih =>
    have hnext : _ = true := Cursor.atEnd_advance hend
    obtain ⟨bp, left, htask⟩ := ih hc.advance hnext (hc.advance.atEnd_iff.mp hnext)
    cases htask
  | unknown rule | primary rule | bare rule | prefixed rule =>
    rw [hkind, hrule] at rule
    cases rule
  | stop | idle | broken | operation => exact ⟨_, _, rfl⟩

variable (hg : g.Consistent) (hend : g.operand? .endOfInput ≠ some .grouped)

include hend in
/-- A group starts at a token of its own. -/
theorem not_atEnd_of_grouped (hc : c.Terminated) (hrule : g.operand? c.current.kind = some .grouped) :
    c.atEnd = false :=
  hc.atEnd_eq_false rfl fun hkind => hend (by rw [← hkind, hrule])

/-- A unary operator is a token, so it is not the end. -/
theorem not_atEnd_of_unaryOp (hc : c.Terminated) {op : UnaryOp}
    (hop : UnaryOp.ofKind? c.current.kind = some op) : c.atEnd = false := by
  refine hc.atEnd_eq_false rfl fun hkind => ?_
  rw [hkind] at hop
  cases hop

/-- An operator ahead has a token of its own. -/
theorem Consistent.not_atEnd (hg : g.Consistent) (hc : c.Terminated) {op : BinaryOp}
    (hop : g.operator? c.lookahead.kind = some op) : c.atEnd = false ∧ c.advance.atEnd = false :=
  hc.atEnd_eq_false_of_lookahead rfl (hg.ne_endOfInput hop)

/-- Closing a group reaches at most the parenthesis. -/
theorem reaches_closed (hc : c.Terminated) (e : Expr) : c.Reaches (closed e c).cursor := by
  unfold closed
  split
  · rename_i c' hexpect
    exact hc.reaches_of_expect (by decide) hexpect
  · exact .refl c

include hg hend in
/-- **Reading an expression never steps past the end token.** -/
theorem Runs.reaches (h : g.Runs task c d r) (hc : c.Terminated) : c.Reaches r.cursor := by
  induction h with
  | failed _ ih => exact ih hc
  | expression _ _ ih ih' =>
    have hreaches := ih hc
    exact hreaches.trans (ih' (hreaches.terminated hc))
  | unknown | primary | bare | stop | idle => exact .refl _
  | prefixed _ hop _ ih =>
    have hreaches := (Cursor.reaches_advance (not_atEnd_of_unaryOp hc hop)).trans (ih hc.advance)
    exact hreaches.andThen fun _ => .refl _
  | grouped hrule _ ih =>
    have hreaches := (Cursor.reaches_advance (not_atEnd_of_grouped hend hc hrule)).trans (ih hc.advance)
    exact hreaches.andThen fun e => reaches_closed (hreaches.terminated hc) e
  | broken _ _ hop _ ih =>
    obtain ⟨hat, hnext⟩ := hg.not_atEnd hc hop
    exact ((Cursor.reaches_advance hat).trans (Cursor.reaches_advance hnext)).trans (ih hc.advance.advance)
  | operation _ _ hop _ _ ih ih' =>
    obtain ⟨hat, hnext⟩ := hg.not_atEnd hc hop
    have hreaches := ((Cursor.reaches_advance hat).trans (Cursor.reaches_advance hnext)).trans
      (ih hc.advance.advance)
    exact hreaches.trans (ih' (hreaches.terminated hc))

include hend in
/-- An expression starts with an operand at the end token too: there is none. -/
theorem expression_eq_operand_andThen (hc : c.Terminated) (bp : BindingPower) :
    g.expression bp c = (g.operand g.expression c).andThen (g.climb bp) := by
  rcases hat : c.atEnd with _ | _
  · exact expression_of_not_atEnd hat
  · have hkind := hc.atEnd_iff.mp hat
    have hoperand : g.operand g.expression c = ⟨.error c.current.noOperand, c⟩ := by
      rcases hrule : g.operand? c.current.kind with _ | _ | _ | _
      · rw [operand, hrule]
      · rw [operand, hrule]
        simp only [primary, Token.primary, hkind]
      · rw [operand, hrule]
        simp only [prefixed, hkind, UnaryOp.ofKind?]
      · exact absurd (hkind ▸ hrule) hend
    rw [expression_of_atEnd hat, hoperand]
    rfl

/-- **An operator ahead that binds strongly enough is taken.** -/
theorem Consistent.operatorAhead?_eq_some (hg : g.Consistent) (hc : c.Terminated) {op : BinaryOp}
    (hne : c.lookahead.kind ≠ .semicolon) (hpower : bp < g.power c.lookahead.kind)
    (hop : g.operator? c.lookahead.kind = some op) : g.operatorAhead? bp c = some op := by
  rw [operatorAhead?, if_pos ⟨(hg.not_atEnd hc hop).2, hne, hpower⟩, hop]

include hg hend in
/-- **What is derived is what is read.** -/
theorem Runs.result_eq (h : g.Runs task c d r) (hc : c.Terminated) : r = task.reading g c := by
  induction h with
  | failed _ ih =>
    have hoperand : g.operand g.expression _ = _ := (ih hc).symm
    rw [Task.reading, expression_eq_operand_andThen hend hc, hoperand]
    rfl
  | expression hruns _ ih ih' =>
    have hoperand : g.operand g.expression _ = _ := (ih hc).symm
    rw [Task.reading, expression_eq_operand_andThen hend hc, hoperand]
    exact ih' ((hruns.reaches hg hend hc).terminated hc)
  | unknown hrule => simp only [Task.reading, Grammar.operand, hrule]
  | primary hrule => simp only [Task.reading, Grammar.operand, Grammar.primary, hrule]
  | bare hrule hop => simp only [Task.reading, Grammar.operand, Grammar.prefixed, hrule, hop]
  | prefixed hrule hop _ ih =>
    rw [ih hc.advance]
    simp only [Task.reading, Grammar.operand, Grammar.prefixed, hrule, hop]
  | grouped hrule _ ih =>
    rw [ih hc.advance]
    simp only [Task.reading, Grammar.operand, hrule]
    rfl
  | stop hahead => exact (climb_of_none ((hg.operatorAhead?_eq_none_iff hc).mpr hahead)).symm
  | idle _ hpower hop =>
    obtain ⟨op, hsome⟩ := hg.exists_operator hpower
    rw [hop] at hsome
    cases hsome
  | @broken bp left c c' d op err hahead hpower hop _ ih =>
    have hinner : g.expression (g.power c.lookahead.kind) c.advance.advance = ⟨.error err, c'⟩ :=
      (ih hc.advance.advance).symm
    rw [Task.reading, climb_of_some (hg.operatorAhead?_eq_some hc hahead hpower hop), Grammar.operation,
      Cursor.current_advance, hinner]
    rfl
  | @operation bp left right c c' d d' op r hahead hpower hop hright _ ih ih' =>
    have hinner : g.expression (g.power c.lookahead.kind) c.advance.advance = ⟨.ok right, c'⟩ :=
      (ih hc.advance.advance).symm
    rw [Task.reading, climb_of_some (hg.operatorAhead?_eq_some hc hahead hpower hop), Grammar.operation,
      Cursor.current_advance, hinner]
    exact ih' ((hright.reaches hg hend hc.advance.advance).terminated hc.advance.advance)

include hg hend in
/-- **Expressions nest no deeper than there are tokens left**, and one that starts at the end token by no
more than itself. -/
theorem Runs.depth_le (h : g.Runs task c d r) (hc : c.Terminated) : d ≤ task.depth c.tokens.length := by
  induction h with
  | failed _ ih => exact Nat.succ_le_succ (ih hc)
  | @expression bp c c' d d' left r hoperand _ ih ih' =>
    have hreaches := hoperand.reaches hg hend hc
    have hlength : c'.tokens.length ≤ c.tokens.length := hreaches.length_le
    have hle := ih hc
    have hle' := ih' (hreaches.terminated hc)
    simp only [Task.depth] at hle hle' ⊢
    omega
  | unknown | primary | bare | stop | idle => exact Nat.zero_le _
  | prefixed _ hop _ ih =>
    exact (ih hc.advance).trans (Cursor.length_advance_lt_of_not_atEnd (not_atEnd_of_unaryOp hc hop))
  | grouped hrule _ ih =>
    exact (ih hc.advance).trans
      (Cursor.length_advance_lt_of_not_atEnd (not_atEnd_of_grouped hend hc hrule))
  | broken _ _ hop _ ih =>
    obtain ⟨hat, hnext⟩ := hg.not_atEnd hc hop
    have hlt := Cursor.length_advance_lt_of_not_atEnd hat
    have hlt' := Cursor.length_advance_lt_of_not_atEnd hnext
    have hle := ih hc.advance.advance
    simp only [Task.depth] at hle ⊢
    omega
  | @operation bp left right c c' d d' op r _ _ hop hright _ ih ih' =>
    obtain ⟨hat, hnext⟩ := hg.not_atEnd hc hop
    have hlt := Cursor.length_advance_lt_of_not_atEnd hat
    have hlt' := Cursor.length_advance_lt_of_not_atEnd hnext
    have hreaches := hright.reaches hg hend hc.advance.advance
    have hlength : c'.tokens.length ≤ c.advance.advance.tokens.length := hreaches.length_le
    have hle := ih hc.advance.advance
    have hle' := ih' (hreaches.terminated hc.advance.advance)
    simp only [Task.depth] at hle hle' ⊢
    omega

/-! ### Every reading of an expression comes to an end -/

/-- Every expression comes to an end where fewer than `n` tokens are left. -/
def RunsBelow (g : Grammar) (n : Nat) : Prop :=
  ∀ (bp : BindingPower) (c : Cursor), c.Terminated → c.tokens.length < n →
    ∃ d r, g.Runs (.expression bp) c d r

include hend in
/-- An operand runs to its end, if the expressions inside it do. -/
theorem exists_runs_operand (hc : c.Terminated) (inner : g.RunsBelow c.tokens.length) :
    ∃ d r, g.Runs .operand c d r := by
  rcases hrule : g.operand? c.current.kind with _ | _ | _ | _
  · exact ⟨_, _, .unknown hrule⟩
  · exact ⟨_, _, .primary hrule⟩
  · rcases hop : UnaryOp.ofKind? c.current.kind with _ | op
    · exact ⟨_, _, .bare hrule hop⟩
    · have hlt := Cursor.length_advance_lt_of_not_atEnd (not_atEnd_of_unaryOp hc hop)
      obtain ⟨d, r, h⟩ := inner .unary _ hc.advance hlt
      exact ⟨_, _, .prefixed hrule hop h⟩
  · have hlt := Cursor.length_advance_lt_of_not_atEnd (not_atEnd_of_grouped hend hc hrule)
    obtain ⟨d, r, h⟩ := inner .lowest _ hc.advance hlt
    exact ⟨_, _, .grouped hrule h⟩

include hg hend in
/-- A climb runs to its end, if the expressions that it reads do. -/
theorem exists_runs_climb (left : Expr) (hc : c.Terminated) (inner : g.RunsBelow c.tokens.length) :
    ∃ d r, g.Runs (.climb bp left) c d r := by
  generalize hn : c.tokens.length = n at inner
  induction n using Nat.strongRecOn generalizing left c with
  | ind n ih =>
    subst hn
    by_cases hahead : c.lookahead.kind = .semicolon ∨ ¬ bp < g.power c.lookahead.kind
    · exact ⟨_, _, .stop hahead⟩
    obtain ⟨hne, hpower⟩ := not_or.mp hahead
    have hpower := not_not.mp hpower
    obtain ⟨op, hop⟩ := hg.exists_operator hpower
    obtain ⟨hat, hnext⟩ := hg.not_atEnd hc hop
    have hlt : c.advance.advance.tokens.length < c.tokens.length :=
      (Cursor.length_advance_lt_of_not_atEnd hnext).trans (Cursor.length_advance_lt_of_not_atEnd hat)
    obtain ⟨d, ⟨_ | right, c'⟩, h⟩ := inner (g.power c.lookahead.kind) _ hc.advance.advance hlt
    · exact ⟨_, _, .broken hne hpower hop h⟩
    · have hreaches := h.reaches hg hend hc.advance.advance
      have hlt' : c'.tokens.length < c.tokens.length := Nat.lt_of_le_of_lt hreaches.length_le hlt
      obtain ⟨d', r, h'⟩ := ih _ hlt' _ (hreaches.terminated hc.advance.advance) rfl
        fun bp c hc h => inner bp c hc (h.trans hlt')
      exact ⟨_, _, .operation hne hpower hop h h'⟩

include hg hend in
/-- All expressions run to their end, by induction on the number of tokens left. -/
theorem runsBelow (n : Nat) : g.RunsBelow n := by
  induction n with
  | zero => exact fun bp c hc hlt => absurd hlt (Nat.not_lt_zero _)
  | succ n ih =>
    intro bp c hc hlt
    have inner : g.RunsBelow c.tokens.length := fun bp c' hc' h => ih bp c' hc' (by omega)
    obtain ⟨d, ⟨_ | left, c'⟩, h⟩ := exists_runs_operand hend hc inner
    · exact ⟨_, _, .failed h⟩
    · have hreaches := h.reaches hg hend hc
      obtain ⟨d', r, h'⟩ : ∃ d r, g.Runs (.climb bp left) c' d r :=
        exists_runs_climb hg hend left (hreaches.terminated hc)
          fun bp c'' hc'' h => inner bp c'' hc'' (Nat.lt_of_lt_of_le h hreaches.length_le)
      exact ⟨_, _, .expression h h'⟩

include hg hend in
/-- **Every reading of an expression comes to an end.** -/
theorem exists_runs (bp : BindingPower) (hc : c.Terminated) :
    ∃ d, g.Runs (.expression bp) c d (g.expression bp c) := by
  obtain ⟨d, r, h⟩ := runsBelow hg hend _ bp c hc (Nat.lt_succ_self _)
  rw [h.result_eq hg hend hc] at h
  exact ⟨d, h⟩

end expressions

end Grammar

/-! ### Statements -/

/-- Stepping from the one cursor up to a `;` or the end token ends at the other. -/
inductive Cursor.Skips : Cursor → Cursor → Prop
  | stop {c : Cursor} (found : c.current.kind = .semicolon ∨ c.current.kind = .endOfInput) : Skips c c
  | step {c c' : Cursor} (ahead : ¬ (c.current.kind = .semicolon ∨ c.current.kind = .endOfInput))
      (rest : Skips c.advance c') : Skips c c'

namespace Cursor

variable {c c' : Cursor}

/-- The skipping of tokens ends at a semicolon or at the end. -/
theorem Terminated.found_iff (hc : c.Terminated) :
    (c.current.kind = .semicolon ∨ c.current.kind = .endOfInput) ↔
      (c.atEnd = true ∨ c.current.kind = .semicolon) := by
  rw [hc.atEnd_iff, or_comm]

/-- Skipping token by token ends where `skipToSemicolon` does. -/
theorem Skips.eq (h : c.Skips c') (hc : c.Terminated) : c' = c.skipToSemicolon := by
  induction h with
  | stop found => rw [skipToSemicolon_eq, if_pos (hc.found_iff.mp found)]
  | step ahead _ ih =>
    rw [skipToSemicolon_eq, if_neg (hc.found_iff.not.mp ahead)]
    exact ih hc.advance

/-- **Skipping comes to an end**, for lack of tokens if not at a `;`. -/
theorem skips_skipToSemicolon (hc : c.Terminated) : c.Skips c.skipToSemicolon := by
  generalize hn : c.tokens.length = n
  induction n generalizing c with
  | zero =>
    have hend := atEnd_iff_length.mpr hn
    rw [skipToSemicolon_eq, if_pos (.inl hend)]
    exact .stop (.inr (hc.atEnd_iff.mp hend))
  | succ n ih =>
    by_cases hfound : c.current.kind = .semicolon ∨ c.current.kind = .endOfInput
    · rw [skipToSemicolon_eq, if_pos (hc.found_iff.mp hfound)]
      exact .stop hfound
    · rw [skipToSemicolon_eq, if_neg (hc.found_iff.not.mp hfound)]
      refine .step hfound (ih hc.advance ?_)
      rw [tokens_advance, List.length_tail, hn]
      rfl

/-- Skipping to a semicolon goes step by step. -/
theorem reaches_skipToSemicolon (c : Cursor) : c.Reaches c.skipToSemicolon :=
  ⟨_, c.tokens.takeWhile_prefix _ |>.length_le, rfl⟩

/-- A semicolon is passed in one step. -/
theorem reaches_passSemicolon (hc : c.Terminated) : c.Reaches c.passSemicolon := by
  unfold passSemicolon
  split_ifs with hahead
  · exact reaches_advance (hc.atEnd_eq_false_of_lookahead hahead (by decide)).1
  · exact .refl c

end Cursor

namespace Grammar

/-- The statement at the cursor comes to an end with the reading, in at most `depth` expressions inside one
another. -/
inductive Iterates (g : Grammar) : Cursor → Nat → Reading (Option Stmt) → Prop
  /-- A binding without a name is dropped. -/
  | unnamed {c : Cursor} {err : SyntaxError} (rule : g.statement? c.current.kind = some .binding)
      (name : c.expect .identifier = .error err) : Iterates g c 0 ⟨none, some ⟨err, c⟩, c⟩
  /-- A binding without an `=` is dropped behind its name. -/
  | unassigned {c c₁ : Cursor} {err : SyntaxError} (rule : g.statement? c.current.kind = some .binding)
      (name : c.expect .identifier = .ok c₁) (assign : c₁.expect .assign = .error err) :
      Iterates g c 0 ⟨none, some ⟨err, c₁⟩, c₁⟩
  | binding {c c₁ c₂ c₃ : Cursor} (rule : g.statement? c.current.kind = some .binding)
      (name : c.expect .identifier = .ok c₁) (assign : c₁.expect .assign = .ok c₂) (skips : c₂.Skips c₃) :
      Iterates g c 0 ⟨some (.binding c.current (.ofToken c₁.current) none
        (c.current.span.upTo c₃.current.span)), none, c₃⟩
  | returning {c c₁ : Cursor} (rule : g.statement? c.current.kind = some .returning)
      (skips : c.advance.Skips c₁) :
      Iterates g c 0 ⟨some (.returning c.current none (c.current.span.upTo c₁.current.span)), none, c₁⟩
  | expression {c c₁ : Cursor} {d : Nat} {e : Expr} (rule : g.statement? c.current.kind = none)
      (runs : g.Runs (.expression .lowest) c d ⟨.ok e, c₁⟩) :
      Iterates g c d ⟨some (.expression c.current (some e)
        (c.current.span.upTo c₁.passSemicolon.current.span)), none, c₁.passSemicolon⟩
  /-- A broken expression leaves an empty place, and what is left of the statement is skipped. -/
  | broken {c c₁ c₂ : Cursor} {d : Nat} {err : SyntaxError} (rule : g.statement? c.current.kind = none)
      (runs : g.Runs (.expression .lowest) c d ⟨.error err, c₁⟩) (skips : c₁.Skips c₂) :
      Iterates g c d ⟨some (.expression c.current none (c.current.span.upTo c₂.current.span)),
        some ⟨err, c₁⟩, c₂⟩

section statements

variable {g : Grammar} {c : Cursor} {d : Nat} {r : Reading (Option Stmt)}
  (hg : g.Consistent) (hend : g.operand? .endOfInput ≠ some .grouped)
include hg hend

/-- **What is derived of a statement is what is read.** -/
theorem Iterates.reading_eq (h : g.Iterates c d r) (hc : c.Terminated) : r = g.statement c := by
  cases h with
  | unnamed rule name => exact (statement_of_rule_error rule (Cursor.binding_of_unnamed name)).symm
  | unassigned rule name assign =>
    obtain ⟨-, rfl⟩ := Cursor.expect_eq_ok_iff.mp name
    exact (statement_of_rule_error rule (Cursor.binding_of_unassigned name assign)).symm
  | binding rule name assign skips =>
    obtain ⟨hname, rfl⟩ := Cursor.expect_eq_ok_iff.mp name
    obtain ⟨hassign, rfl⟩ := Cursor.expect_eq_ok_iff.mp assign
    have hskips := skips.eq hc.advance.advance
    refine (statement_of_rule_ok rule (Cursor.binding_eq_ok_iff.mpr ⟨hname, hassign, hskips, ?_⟩)).symm
    rw [Cursor.current_advance]
  | returning rule skips =>
    rw [skips.eq hc.advance]
    exact (statement_of_rule_ok rule rfl).symm
  | expression rule runs => exact (statement_of_expression_ok rule (runs.result_eq hg hend hc).symm).symm
  | broken rule runs skips =>
    rw [skips.eq ((runs.reaches hg hend hc).terminated hc)]
    exact (statement_of_expression_error rule (runs.result_eq hg hend hc).symm).symm

/-- **Reading a statement never steps past the end token.** -/
theorem Iterates.reaches (h : g.Iterates c d r) (hc : c.Terminated) (hat : c.atEnd = false) :
    c.Reaches r.cursor := by
  cases h with
  | unnamed => exact .refl c
  | unassigned _ name => exact hc.reaches_of_expect (by decide) name
  | binding _ name assign skips =>
    have hname := hc.reaches_of_expect (by decide) name
    have hassign := (hname.terminated hc).reaches_of_expect (by decide) assign
    have hreaches := hname.trans hassign
    rw [skips.eq (hreaches.terminated hc)]
    exact hreaches.trans (Cursor.reaches_skipToSemicolon _)
  | returning _ skips =>
    rw [skips.eq hc.advance]
    exact (Cursor.reaches_advance hat).trans (Cursor.reaches_skipToSemicolon _)
  | expression _ runs =>
    have hreaches := runs.reaches hg hend hc
    exact hreaches.trans (Cursor.reaches_passSemicolon (hreaches.terminated hc))
  | broken _ runs skips =>
    have hreaches := runs.reaches hg hend hc
    rw [skips.eq (hreaches.terminated hc)]
    exact hreaches.trans (Cursor.reaches_skipToSemicolon _)

/-- A statement nests expressions no deeper than there are tokens left, and one more. -/
theorem Iterates.depth_le (h : g.Iterates c d r) (hc : c.Terminated) : d ≤ c.tokens.length + 1 := by
  cases h with
  | unnamed | unassigned | binding | returning => exact Nat.zero_le _
  | expression _ runs | broken _ runs => exact runs.depth_le hg hend hc

/-- **Every reading of a statement comes to an end.** -/
theorem exists_iterates (hc : c.Terminated) : ∃ d, g.Iterates c d (g.statement c) := by
  -- Any derivation will do: they all give the statement.
  suffices h : ∃ d r, g.Iterates c d r by
    obtain ⟨d, r, h⟩ := h
    rw [h.reading_eq hg hend hc] at h
    exact ⟨d, h⟩
  rcases hrule : g.statement? c.current.kind with _ | _ | _
  · obtain ⟨d, hruns⟩ := exists_runs hg hend .lowest hc
    rcases hr : g.expression .lowest c with ⟨err | e, c₁⟩
    · rw [hr] at hruns
      have hc₁ := (hruns.reaches hg hend hc).terminated hc
      exact ⟨_, _, .broken hrule hruns (Cursor.skips_skipToSemicolon hc₁)⟩
    · rw [hr] at hruns
      exact ⟨_, _, .expression hrule hruns⟩
  · rcases hname : c.expect .identifier with err | c₁
    · exact ⟨_, _, .unnamed hrule hname⟩
    have hreaches := hc.reaches_of_expect (by decide) hname
    have hc₁ := hreaches.terminated hc
    rcases hassign : c₁.expect .assign with err | c₂
    · exact ⟨_, _, .unassigned hrule hname hassign⟩
    have hc₂ := (hc₁.reaches_of_expect (by decide) hassign).terminated hc₁
    exact ⟨_, _, .binding hrule hname hassign (Cursor.skips_skipToSemicolon hc₂)⟩
  · exact ⟨_, _, .returning hrule (Cursor.skips_skipToSemicolon hc.advance)⟩

end statements

/-! ### Programs -/

/-- One round of reading a program: where it starts, how deeply its expressions nest, and what it reads. -/
structure Iteration where
  start : Cursor
  depth : Nat
  reading : Reading (Option Stmt)

/-- Reading statements up to the end token comes to an end, after the rounds and on the last cursor. From
one round to the next is one more step. -/
inductive Drives (g : Grammar) : Cursor → List Iteration → Cursor → Prop
  | done {c : Cursor} (ended : c.current.kind = .endOfInput) : Drives g c [] c
  | next {c c' : Cursor} {d : Nat} {r : Reading (Option Stmt)} {its : List Iteration}
      (more : c.current.kind ≠ .endOfInput) (iterates : g.Iterates c d r)
      (rest : Drives g r.cursor.advance its c') : Drives g c (⟨c, d, r⟩ :: its) c'

/-- The round starts on one of `n` tokens, ends no later than on the end token behind them and nests
expressions no deeper than there are tokens left. -/
structure Iteration.Within (n : Nat) (it : Iteration) : Prop where
  start : it.start.index < n
  forward : it.start.index ≤ it.reading.cursor.index
  stop : it.reading.cursor.index ≤ n
  depth : it.depth ≤ 1 + (n - it.start.index)

section programs

variable {g : Grammar} {c c' : Cursor} {its : List Iteration} {n : Nat}
  (hg : g.Consistent) (hend : g.operand? .endOfInput ≠ some .grouped)
include hg hend

/-- **What is derived of a program is what is read.** -/
theorem Drives.readings_eq (h : g.Drives c its c') (hc : c.Terminated) :
    its.map Iteration.reading = g.statements c := by
  induction h with
  | done ended => exact (statements_of_atEnd (hc.atEnd_iff.mpr ended)).symm
  | next more iterates _ ih =>
    have hstatement := iterates.reading_eq hg hend hc
    have hat := hc.atEnd_eq_false rfl more
    have hreaches := iterates.reaches hg hend hc hat
    rw [statements_of_not_atEnd hat, List.map_cons, ih (hreaches.terminated hc).advance, hstatement]

/-- **A round keeps to the tokens.** -/
theorem Iterates.within {d : Nat} {r : Reading (Option Stmt)} (h : g.Iterates c d r) (hc : c.Terminated)
    (hat : c.atEnd = false) (hn : c.index + c.tokens.length = n) : Iteration.Within n ⟨c, d, r⟩ := by
  have hreaches := h.reaches hg hend hc hat
  have hindex := hreaches.index_add_length
  have hle := hreaches.length_le
  have hdepth := h.depth_le hg hend hc
  have hpos := Cursor.length_advance_lt_of_not_atEnd hat
  constructor <;> dsimp only <;> omega

/-- **A program is read in one pass**: the rounds keep to the tokens, and only the step behind the last one
may leave the end token. -/
theorem Drives.within (h : g.Drives c its c') (hc : c.Terminated)
    (hn : c.index + c.tokens.length = n ∨ c.atEnd = true ∧ c.index = n + 1) :
    c'.index ≤ n + 1 ∧ ∀ it ∈ its, it.Within n := by
  induction h with
  | done ended =>
    refine ⟨?_, fun it hit => absurd hit List.not_mem_nil⟩
    rcases hn with hn | ⟨-, hn⟩
    · omega
    · exact hn.le
  | @next c c' d r its more iterates _ ih =>
    have hat := hc.atEnd_eq_false rfl more
    have hn : c.index + c.tokens.length = n := by
      rcases hn with hn | ⟨hat', -⟩
      · exact hn
      · rw [hat] at hat'
        cases hat'
    have hreaches := iterates.reaches hg hend hc hat
    obtain ⟨hlast, hits⟩ := ih (hreaches.terminated hc).advance (hreaches.index_advance hn)
    exact ⟨hlast, List.forall_mem_cons.mpr ⟨iterates.within hg hend hc hat hn, hits⟩⟩

/-- **Every reading of a program comes to an end.** -/
theorem exists_drives (hc : c.Terminated) : ∃ its c', g.Drives c its c' := by
  induction c using g.statements_induction with
  | atEnd c hat => exact ⟨_, _, .done (hc.atEnd_iff.mp hat)⟩
  | statement c hat ih =>
    have hkind : c.current.kind ≠ .endOfInput := fun hkind => by
      rw [hc.atEnd_iff.mpr hkind] at hat
      cases hat
    obtain ⟨d, hiterates⟩ := exists_iterates hg hend hc
    obtain ⟨its, c', hrest⟩ := ih (terminated_after_statement hc)
    exact ⟨_, _, .next hkind hiterates hrest⟩

end programs

end Grammar

/-! ### Parsers -/

namespace Parser

/-- One change of a grammar. -/
inductive Change where
  | operator (op : BinaryOp) (power : BindingPower)
  | operand (kind : TokenKind) (rule : OperandRule)
  | statement (kind : TokenKind) (rule : StatementRule)

/-- The call that makes the change. -/
def Change.call : Change → Call
  | operator op power => .withOperator op power
  | operand kind rule => .withOperand kind rule
  | statement kind rule => .withStatement kind rule

/-- The parser at the start of a text, with the changes made to its grammar, the first one first. -/
def changed (text : String) (file : Option String) (changes : List Change) : Parser :=
  (ofText text file).run (changes.map Change.call)

/-- Changes of the grammar leave a parser where it is. -/
theorem cursor_run_changes (p : Parser) (changes : List Change) :
    (p.run (changes.map Change.call)).cursor = p.cursor := by
  induction changes generalizing p with
  | nil => rfl
  | cons change changes ih =>
    rw [List.map_cons, run, List.foldl_cons, ← run, ih]
    cases change <;> rfl

/-- A parser whose grammar was changed stands at the start of its text. -/
theorem cursor_changed (text : String) (file : Option String) (changes : List Change) :
    (changed text file changes).cursor = Cursor.ofText text file :=
  cursor_run_changes _ changes

/-- Taking a statement leads a parser to the token behind it. -/
theorem cursor_pass (p : Parser) (r : Reading (Option Stmt)) : (p.pass r).cursor = r.cursor.advance := by
  unfold pass take
  rcases r with ⟨_ | s, _ | f, c⟩ <;> rfl

/-- After the rounds of a program a parser stands where they led. -/
theorem cursor_foldl_pass {g : Grammar} {c c' : Cursor} {its : List Grammar.Iteration}
    (h : g.Drives c its c') {p : Parser} (hp : p.cursor = c) :
    ((its.map Grammar.Iteration.reading).foldl pass p).cursor = c' := by
  induction h generalizing p with
  | done => exact hp
  | next _ _ _ ih => exact ih (p.cursor_pass _)

end Parser

/-- **A program is read in one pass, whatever the handling of the kinds of token.** In a text of `n` tokens,
with the grammar changed in any way but that a group starts at the end token, reading comes to an end, and
however it does so, it ends where the parser does and with the same statements. It takes no more than `n + 1`
steps. Each round starts on a token, keeps to the `n` tokens and the end token until the step behind it, and
nests expressions no deeper than one more than there are tokens left. Every single expression, wherever it is
read and by whatever power, comes to an end too, as what the parser reads, and nests no deeper than that. -/
theorem program_in_one_pass (text : String) (file : Option String) (changes : List Parser.Change)
    (hend : (Parser.changed text file changes).grammar.operand? .endOfInput ≠ some .grouped) :
    let p := Parser.changed text file changes
    let n := (tokenize text file).dropLast.length
    p.cursor.index = 0 ∧
    (∃ its, p.grammar.Drives p.cursor its p.program.2.cursor) ∧
    (∀ its c, p.grammar.Drives p.cursor its c →
      c = p.program.2.cursor ∧ its.filterMap (·.reading.value) = p.program.1.statements ∧
        c.index ≤ n + 1 ∧ ∀ it ∈ its, it.Within n) ∧
    ∀ i bp, let start := p.cursor.forward i
      (∃ d, p.grammar.Runs (.expression bp) start d (p.grammar.expression bp start)) ∧
      ∀ d r, p.grammar.Runs (.expression bp) start d r →
        r = p.grammar.expression bp start ∧ d ≤ 1 + (n - i) := by
  intro p n
  have hg : p.grammar.Consistent := Parser.consistent_run Grammar.consistent_standard _
  have hcursor : p.cursor = Cursor.ofText text file := Parser.cursor_changed text file changes
  have hc : p.cursor.Terminated := by
    rw [hcursor]
    exact Cursor.terminated_ofText text file
  have hn : p.cursor.tokens.length = n := by
    have htokens : (tokenize text file).dropLast = (Cursor.ofText text file).tokens := List.dropLast_concat
    rw [hcursor, ← htokens]
  have hindex : p.cursor.index = 0 := by
    rw [hcursor]
    rfl
  -- every drive ends where the program does, with the same statements
  have hdrives : ∀ its c, p.grammar.Drives p.cursor its c →
      p.program.2.cursor = c ∧ p.program.1.statements = its.filterMap (·.reading.value) := by
    intro its c h
    rw [Parser.program, ← h.readings_eq hg hend hc]
    exact ⟨Parser.cursor_foldl_pass h rfl, List.filterMap_map⟩
  refine ⟨hindex, ?_, fun its c h => ?_, fun i bp => ?_⟩
  · obtain ⟨its, c, h⟩ := Grammar.exists_drives hg hend hc
    rw [(hdrives its c h).1]
    exact ⟨its, h⟩
  · obtain ⟨hlast, hstatements⟩ := hdrives its c h
    have hwithin := h.within hg hend hc (n := n) (.inl (by rw [hindex, hn, Nat.zero_add]))
    exact ⟨hlast.symm, hstatements.symm, hwithin⟩
  · refine ⟨Grammar.exists_runs hg hend bp (hc.forward i), fun d r h => ?_⟩
    refine ⟨h.result_eq hg hend (hc.forward i), ?_⟩
    have hle := h.depth_le hg hend (hc.forward i)
    rw [Grammar.Task.depth, Cursor.tokens_forward, List.length_drop, hn] at hle
    omega

/-- With `;` a unary operator that is none, `)` and `!` opening groups, `+` the weakest operator of all and a
`return` at every name, the end of the text is met in the middle of a group. -/
theorem program_in_one_pass_odd :
    let changes : List Parser.Change := [.operand .semicolon .prefixed, .operand .rightParen .grouped,
      .operand .bang .grouped, .operand .endOfInput .prefixed, .operator .add .lowest,
      .statement .identifier .returning]
    let p := Parser.changed "a; 1 + !)(2" none changes
    p.grammar.operand? .endOfInput ≠ some .grouped ∧ p.program.2.cursor.index ≤ 9 ∧
      ∃ its, p.grammar.Drives p.cursor its p.program.2.cursor ∧ ∀ it ∈ its, it.Within 8 := by
  intro changes
  dsimp only
  have hend : (Parser.changed "a; 1 + !)(2" none changes).grammar.operand? .endOfInput ≠ some .grouped := by
    decide
  have hn : (tokenize "a; 1 + !)(2" none).dropLast.length = 8 := by decide
  obtain ⟨-, ⟨its, h⟩, hall, -⟩ := program_in_one_pass "a; 1 + !)(2" none changes hend
  obtain ⟨-, -, hlast, hwithin⟩ := hall its _ h
  rw [hn] at hlast hwithin
  exact ⟨hend, hlast, its, h, hwithin⟩

end Prattle
