import Prattle.Expr.Operator
import Prattle.Numeral
import Prattle.Token.Basic

/-!
# The grammar as derivations

Which token lists are programs, said without a parser:

    Program = Stmt*
    Stmt    = LET IDENT '=' X* End | RETURN X* End | Expr [';']
    Expr    = Unary (BinOp Unary)*
    Unary   = ('-' | '!')* Atom
    Atom    = IDENT | INT | TRUE | FALSE | '(' Expr ')'

`BinOp` is one of `+ - * / < > == !=`, `X` is any token but `;`, an `INT` needs a value, and `End` is a
`;` or the end of the input. The grammar is ambiguous: `a - b` is one statement or two, since a `-` can
go on with an expression or start one, and no `;` is needed between them. The kinds of the operators
are those that are read as operators (`mem_unaryKinds_iff`, `mem_binaryKinds_iff`).

`Continues X` and `Opens X` describe the lists a derivation may be in the middle of: an operand was
read and `X` may follow the expression, or an operand has to follow first. They are the invariant of
a reading that always goes on with an expression if it can (`Opens.of_operator`).
-/

namespace Prattle.Syntax

/-! ### Expressions -/

/-- The kinds of the unary operators. -/
def unaryKinds : List TokenKind :=
  [.minus, .bang]

/-- The kinds of the binary operators. -/
def binaryKinds : List TokenKind :=
  [.plus, .minus, .star, .slash, .less, .greater, .equal, .notEqual]

/-- What a list of tokens is derived as. -/
inductive Category where
  | atom
  | unary
  | expression
  deriving DecidableEq

/-- The tokens form an expression, a unary expression or an atom. -/
inductive Derives : Category → List Token → Prop
  | name {t : Token} (kind : t.kind = .identifier) : Derives .atom [t]
  | number {t : Token} (kind : t.kind = .integer) (value : (Numeral.value? t.text).isSome) :
      Derives .atom [t]
  | truth {t : Token} (kind : t.kind = .trueWord ∨ t.kind = .falseWord) : Derives .atom [t]
  | group {l r : Token} {ts : List Token} (left : l.kind = .leftParen)
      (inner : Derives .expression ts) (right : r.kind = .rightParen) :
      Derives .atom (l :: ts ++ [r])
  | ofAtom {ts : List Token} (atom : Derives .atom ts) : Derives .unary ts
  | unary {t : Token} {ts : List Token} (kind : t.kind ∈ unaryKinds)
      (operand : Derives .unary ts) : Derives .unary (t :: ts)
  | ofUnary {ts : List Token} (unary : Derives .unary ts) : Derives .expression ts
  | binary {t : Token} {ls rs : List Token} (left : Derives .expression ls)
      (kind : t.kind ∈ binaryKinds) (right : Derives .unary rs) : Derives .expression (ls ++ t :: rs)

/-! ### Statements and programs -/

/-- A skipped value ends with a `;`, or with the end of the input. -/
inductive IsEnd : List Token → List Token → Prop
  | semicolon {t : Token} {rest : List Token} (kind : t.kind = .semicolon) : IsEnd [t] rest
  | endOfInput : IsEnd [] []

/-- The tokens `ts` form a statement if `rest` follows them: `IsStmt ts rest`. -/
inductive IsStmt : List Token → List Token → Prop
  | binding {t name assign : Token} {xs stop rest : List Token} (kind : t.kind = .letWord)
      (isName : name.kind = .identifier) (isAssign : assign.kind = .assign)
      (skipped : ∀ x ∈ xs, x.kind ≠ .semicolon) (isEnd : IsEnd stop rest) :
      IsStmt (t :: name :: assign :: xs ++ stop) rest
  | returning {t : Token} {xs stop rest : List Token} (kind : t.kind = .returnWord)
      (skipped : ∀ x ∈ xs, x.kind ≠ .semicolon) (isEnd : IsEnd stop rest) :
      IsStmt (t :: xs ++ stop) rest
  | expression {ts rest : List Token} (isExpr : Derives .expression ts) : IsStmt ts rest
  | terminated {t : Token} {ts rest : List Token} (isExpr : Derives .expression ts)
      (kind : t.kind = .semicolon) : IsStmt (ts ++ [t]) rest

/-- The tokens form a program: one statement after the other. -/
inductive IsProgram : List Token → Prop
  | nil : IsProgram []
  | cons {ts rest : List Token} (first : IsStmt ts rest) (more : IsProgram rest) :
      IsProgram (ts ++ rest)

/-! ### Kinds of operators -/

/-- **These kinds and no others are read as unary operators.** -/
theorem mem_unaryKinds_iff {kind : TokenKind} : kind ∈ unaryKinds ↔ ∃ op : UnaryOp, op.kind = kind := by
  constructor
  · intro h
    have hall : ∀ kind ∈ unaryKinds, (UnaryOp.ofKind? kind).isSome = true := by decide
    obtain ⟨op, hop⟩ := Option.isSome_iff_exists.mp (hall kind h)
    exact ⟨op, UnaryOp.ofKind?_eq_some_iff.mp hop⟩
  · rintro ⟨op, rfl⟩
    cases op <;> decide

/-- **These kinds and no others are read as binary operators.** -/
theorem mem_binaryKinds_iff {kind : TokenKind} :
    kind ∈ binaryKinds ↔ ∃ op : BinaryOp, op.kind = kind := by
  constructor
  · intro h
    have hall : ∀ kind ∈ binaryKinds, (BinaryOp.ofKind? kind).isSome = true := by decide
    obtain ⟨op, hop⟩ := Option.isSome_iff_exists.mp (hall kind h)
    exact ⟨op, BinaryOp.ofKind?_eq_some_iff.mp hop⟩
  · rintro ⟨op, rfl⟩
    cases op <;> decide

/-! ### How derivations start -/

/-- The kinds that an atom starts with. -/
def atomKinds : List TokenKind :=
  [.identifier, .integer, .trueWord, .falseWord, .leftParen]

/-- The kinds that an expression starts with. -/
def operandKinds : List TokenKind :=
  unaryKinds ++ atomKinds

/-- An atom starts with a token that may start one. -/
theorem Derives.exists_cons_atom {ts : List Token} (h : Derives .atom ts) :
    ∃ t rest, ts = t :: rest ∧ t.kind ∈ atomKinds := by
  cases h with
  | @name t kind => exact ⟨t, [], rfl, by rw [kind]; decide⟩
  | @number t kind => exact ⟨t, [], rfl, by rw [kind]; decide⟩
  | @truth t kind =>
    refine ⟨t, [], rfl, ?_⟩
    rcases kind with kind | kind
    · rw [kind]; decide
    · rw [kind]; decide
  | @group l r ts left => exact ⟨l, ts ++ [r], rfl, by rw [left]; decide⟩

/-- **Every derivation starts with a token that starts an operand.** -/
theorem Derives.exists_cons {category : Category} {ts : List Token} (h : Derives category ts) :
    ∃ t rest, ts = t :: rest ∧ t.kind ∈ operandKinds := by
  have hatom : ∀ {ts : List Token}, Derives .atom ts →
      ∃ t rest, ts = t :: rest ∧ t.kind ∈ operandKinds := by
    intro ts hts
    obtain ⟨t, rest, heq, hkind⟩ := hts.exists_cons_atom
    exact ⟨t, rest, heq, List.mem_append_right _ hkind⟩
  induction h with
  | name kind => exact hatom (.name kind)
  | number kind value => exact hatom (.number kind value)
  | truth kind => exact hatom (.truth kind)
  | group left inner right => exact hatom (.group left inner right)
  | ofAtom atom => exact hatom atom
  | @unary t ts kind => exact ⟨t, ts, rfl, List.mem_append_left _ kind⟩
  | ofUnary unary ih => exact ih
  | @binary t ls rs left kind right ihl =>
    obtain ⟨t', rest, rfl, hstart⟩ := ihl
    exact ⟨t', rest ++ t :: rs, rfl, hstart⟩

/-- Two expressions with a binary operator between them are one. -/
theorem Derives.join {t : Token} {ls rs : List Token}
    (hl : Derives .expression ls) (hop : t.kind ∈ binaryKinds) (hr : Derives .expression rs) :
    Derives .expression (ls ++ t :: rs) := by
  generalize hcategory : Category.expression = category at hr
  induction hr with
  | ofUnary unary => exact .binary hl hop unary
  | binary left kind right ihl =>
    have hjoined := (ihl rfl).binary kind right
    simpa only [List.append_assoc, List.cons_append] using hjoined
  | name | number | truth | group | ofAtom | unary => cases hcategory

/-- A unary operator in front of an expression belongs to its first operand. -/
theorem Derives.sign {t : Token} {ts : List Token} (h : Derives .expression ts)
    (hop : t.kind ∈ unaryKinds) : Derives .expression (t :: ts) := by
  generalize hcategory : Category.expression = category at h
  induction h with
  | ofUnary unary => exact .ofUnary (.unary hop unary)
  | binary left kind right ihl => exact (ihl rfl).binary kind right
  | name | number | truth | group | ofAtom | unary => cases hcategory

/-! ### In the middle of an expression -/

variable {X : List Token → Prop}

/-- An operand was read: more operators with their operands, then something of `X`. -/
inductive Continues (X : List Token → Prop) : List Token → Prop
  | stop {rest : List Token} (h : X rest) : Continues X rest
  | operation {t : Token} {us rest : List Token} (kind : t.kind ∈ binaryKinds)
      (operand : Derives .unary us) (more : Continues X rest) : Continues X (t :: us ++ rest)

/-- An operand has to be read, and what follows it goes on so. -/
def Opens (X : List Token → Prop) (ts : List Token) : Prop :=
  ∃ us rest, ts = us ++ rest ∧ Derives .unary us ∧ Continues X rest

/-- An expression opens whatever may follow it. -/
theorem Derives.opens {ts rest : List Token} (h : Derives .expression ts)
    (hrest : Continues X rest) : Opens X (ts ++ rest) := by
  generalize hcategory : Category.expression = category at h
  induction h generalizing rest with
  | @ofUnary ts unary => exact ⟨ts, rest, rfl, unary, hrest⟩
  | binary left kind right ihl =>
    rw [List.append_assoc]
    exact ihl (.operation kind right hrest) rfl
  | name | number | truth | group | ofAtom | unary => cases hcategory

/-- **What starts with a binary operator and with an operand can drop the operator**: it is a `-`, and
the rest is the operand of the sign as well as of the operation. -/
theorem Opens.of_operator {t : Token} {rest : List Token}
    (hop : t.kind ∈ binaryKinds) (h : Opens X (t :: rest)) : Opens X rest := by
  obtain ⟨us, more, heq, hunary, hmore⟩ := h
  cases hunary with
  | ofAtom atom =>
    -- no atom starts with an operator
    obtain ⟨t', us', rfl, hkind⟩ := atom.exists_cons_atom
    obtain ⟨rfl, -⟩ := List.cons.inj heq
    have hnone : ∀ kind ∈ atomKinds, kind ∉ binaryKinds := by decide
    exact absurd hop (hnone _ hkind)
  | @unary t' us kind operand =>
    obtain ⟨-, rfl⟩ := List.cons.inj heq
    exact ⟨us, more, rfl, operand, hmore⟩

/-- What opens something starts with a token that starts an operand. -/
theorem Opens.head_mem {t : Token} {rest : List Token} (h : Opens X (t :: rest)) :
    t.kind ∈ operandKinds := by
  obtain ⟨us, more, heq, hunary, -⟩ := h
  obtain ⟨t', us', rfl, hkind⟩ := hunary.exists_cons
  obtain ⟨rfl, -⟩ := List.cons.inj heq
  exact hkind

/-! ### After an expression statement -/

/-- What may follow an expression on its own: more statements, with or without a `;` before them. -/
def AfterExpression (ts : List Token) : Prop :=
  IsProgram ts ∨ ∃ t rest, ts = t :: rest ∧ t.kind = .semicolon ∧ IsProgram rest

/-- **How a program starts**: with a binding, a return, or an expression that it goes on after. -/
theorem IsProgram.cons_cases {t : Token} {ts : List Token} (h : IsProgram (t :: ts)) :
    (t.kind = .letWord ∧ ∃ name assign xs stop rest, ts = name :: assign :: xs ++ stop ++ rest ∧
      name.kind = .identifier ∧ assign.kind = .assign ∧ (∀ x ∈ xs, x.kind ≠ .semicolon) ∧
      IsEnd stop rest ∧ IsProgram rest) ∨
    (t.kind = .returnWord ∧ ∃ xs stop rest, ts = xs ++ stop ++ rest ∧
      (∀ x ∈ xs, x.kind ≠ .semicolon) ∧ IsEnd stop rest ∧ IsProgram rest) ∨
    Opens AfterExpression (t :: ts) := by
  generalize hwhole : t :: ts = whole at h
  cases h with
  | nil => cases hwhole
  | @cons first rest hfirst hrest =>
    cases hfirst with
    | @binding t' name assign xs stop rest kind isName isAssign skipped isEnd =>
      obtain ⟨rfl, hts⟩ := List.cons.inj hwhole
      exact .inl ⟨kind, name, assign, xs, stop, rest, hts, isName, isAssign, skipped, isEnd, hrest⟩
    | @returning t' xs stop rest kind skipped isEnd =>
      obtain ⟨rfl, hts⟩ := List.cons.inj hwhole
      exact .inr (.inl ⟨kind, xs, stop, rest, hts, skipped, isEnd, hrest⟩)
    | expression isExpr => exact .inr (.inr (isExpr.opens (.stop (.inl hrest))))
    | @terminated s ts' rest isExpr kind =>
      rw [List.append_assoc]
      exact .inr (.inr (isExpr.opens (.stop (.inr ⟨s, rest, rfl, kind, hrest⟩))))

/-- No program starts with a `;`. -/
theorem IsProgram.head_ne_semicolon {t : Token} {ts : List Token} (h : IsProgram (t :: ts)) :
    t.kind ≠ .semicolon := by
  rcases h.cons_cases with ⟨kind, -⟩ | ⟨kind, -⟩ | hopens
  · rw [kind]; decide
  · rw [kind]; decide
  · intro hkind
    have hmem := hopens.head_mem
    rw [hkind] at hmem
    exact absurd hmem (by decide)

/-- **What may follow an expression and starts with a binary operator can drop the operator**, so going
on with the expression loses nothing. -/
theorem AfterExpression.opens {t : Token} {rest : List Token}
    (hop : t.kind ∈ binaryKinds) (h : AfterExpression (t :: rest)) : Opens AfterExpression rest := by
  rcases h with hprogram | ⟨t', rest', heq, hkind, -⟩
  · rcases hprogram.cons_cases with ⟨kind, -⟩ | ⟨kind, -⟩ | hopens
    · rw [kind] at hop
      exact absurd hop (by decide)
    · rw [kind] at hop
      exact absurd hop (by decide)
    · exact hopens.of_operator hop
  · obtain ⟨rfl, -⟩ := List.cons.inj heq
    rw [hkind] at hop
    exact absurd hop (by decide)

end Prattle.Syntax
