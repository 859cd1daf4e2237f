import Prattle.Proofs.Climbing

/-!
# Reading expressions layer by layer

The same language of expressions, read by one function for each layer of operators and without
binding powers:

    equality   = relational (('==' | '!=') relational)*
    relational = sum (('<' | '>') sum)*
    sum        = product (('+' | '-') product)*
    product    = unary (('*' | '/') unary)*
    unary      = ('-' | '!') unary | atom
    atom       = IDENT | INT | TRUE | FALSE | '(' equality ')'

Each chain groups to the left. A reading ends on its last token, or where it failed.

* **Climbing reads what the layers read** (`expression_eq_above`): on every cursor of a text and for
  every power, the two give the same tree or the same error, and end on the same token.
* The layers nest through `unary` and `atom`, so `unaryWithin` counts down the nesting, and
  `chainUpTo` the operators. Neither count ever ends a reading: `unary_eq` is the rule without its
  count, and a chain ends only where no operator of its layer is ahead (`IsLayer.ahead?_of_above`).
-/

namespace Prattle.Layered

/-! ### The layers -/

/-- The operator that the list gives the token ahead, if it gives it one. -/
def ahead? (ops : List (TokenKind × BinaryOp)) (c : Cursor) : Option BinaryOp :=
  ops.lookup c.lookahead.kind

/-- At most `n` operators of the list, each with the operand after it, grouped to the left. -/
def chainUpTo (ops : List (TokenKind × BinaryOp)) (operand : Cursor → Outcome Expr) :
    Nat → Expr → Cursor → Outcome Expr
  | 0, left, c => ⟨.ok left, c⟩
  | n + 1, left, c =>
    match ahead? ops c with
    | none => ⟨.ok left, c⟩
    | some op =>
      (operand c.advance.advance).andThen fun right c' =>
        chainUpTo ops operand n (.binary c.lookahead op left right (left.span.upTo right.span)) c'

/-- Operands with operators of the list between them. -/
def chain (ops : List (TokenKind × BinaryOp)) (operand : Cursor → Outcome Expr) (c : Cursor) :
    Outcome Expr :=
  (operand c).andThen fun left c' => chainUpTo ops operand c'.tokens.length left c'

section layers

variable (unary : Cursor → Outcome Expr)

/-- Products of unary expressions. -/
def productOf : Cursor → Outcome Expr :=
  chain [(.star, .multiply), (.slash, .divide)] unary

/-- Sums of products. -/
def sumOf : Cursor → Outcome Expr :=
  chain [(.plus, .add), (.minus, .subtract)] (productOf unary)

/-- Sums, compared by size. -/
def relationalOf : Cursor → Outcome Expr :=
  chain [(.less, .less), (.greater, .greater)] (sumOf unary)

/-- Relations, compared for equality. -/
def equalityOf : Cursor → Outcome Expr :=
  chain [(.equal, .equal), (.notEqual, .notEqual)] (relationalOf unary)

/-- A leaf, or a whole expression between parentheses. -/
def atomOf (c : Cursor) : Outcome Expr :=
  let t := c.current
  match t.kind with
  | .identifier => ⟨.ok (.identifier (.ofToken t)), c⟩
  | .integer =>
    match Numeral.value? t.text with
    | some value => ⟨.ok (.integer t value t.span), c⟩
    | none => ⟨.error ⟨.badNumeral t.text, t.span.start⟩, c⟩
  | .trueWord => ⟨.ok (.boolean t true t.span), c⟩
  | .falseWord => ⟨.ok (.boolean t false t.span), c⟩
  | .leftParen =>
    (equalityOf unary c.advance).andThen fun e c' =>
      match c'.expect .rightParen with
      | .ok c'' => ⟨.ok e, c''⟩
      | .error err => ⟨.error err, c'⟩
  | kind => ⟨.error ⟨.noOperand kind, t.span.start⟩, c⟩

/-- A unary operator with its operand, or an atom. -/
def unaryOf (c : Cursor) : Outcome Expr :=
  let t := c.current
  let operation (op : UnaryOp) : Outcome Expr :=
    (unary c.advance).andThen fun e c' => ⟨.ok (.unary t op e (t.span.upTo e.span)), c'⟩
  match t.kind with
  | .minus => operation .negate
  | .bang => operation .not
  | _ => atomOf unary c

end layers

/-- A unary expression in which at most `depth` of them are nested, counting itself. -/
def unaryWithin : Nat → Cursor → Outcome Expr
  | 0, c => ⟨.error ⟨.noOperand c.current.kind, c.current.span.start⟩, c⟩
  | depth + 1, c => unaryOf (unaryWithin depth) c

/-- `unary = ('-' | '!') unary | atom`. A nested one starts at a later token, so the tokens left
bound the nesting. -/
def unary (c : Cursor) : Outcome Expr :=
  unaryWithin c.tokens.length c

/-- `atom = IDENT | INT | TRUE | FALSE | '(' equality ')'`. -/
def atom : Cursor → Outcome Expr :=
  atomOf unary

/-- `product = unary (('*' | '/') unary)*`. -/
def product : Cursor → Outcome Expr :=
  productOf unary

/-- `sum = product (('+' | '-') product)*`. -/
def sum : Cursor → Outcome Expr :=
  sumOf unary

/-- `relational = sum (('<' | '>') sum)*`. -/
def relational : Cursor → Outcome Expr :=
  relationalOf unary

/-- `equality = relational (('==' | '!=') relational)*`. -/
def equality : Cursor → Outcome Expr :=
  equalityOf unary

/-- The loosest layer whose operators all bind more strongly than the given power. -/
def above : BindingPower → Cursor → Outcome Expr
  | .lowest => equality
  | .equality => relational
  | .comparison => sum
  | .sum => product
  | .product | .unary | .call => unary

/-! ### One layer is one more power -/

/-- The operators of the list are those that bind more strongly than `low` and not more strongly
than `high`, each beside its token, and they bind exactly as strongly as `high`. -/
structure IsLayer (low high : BindingPower) (ops : List (TokenKind × BinaryOp)) : Prop where
  mem_iff : ∀ kind op, (kind, op) ∈ ops ↔ op.kind = kind ∧ low < op.power ∧ ¬ high < op.power
  power : ∀ entry ∈ ops, entry.2.power = high

/-- Products are one layer: `*` and `/`. -/
theorem isLayer_product : IsLayer .sum .product [(.star, .multiply), (.slash, .divide)] :=
  ⟨fun kind op => by cases kind <;> cases op <;> decide, by decide⟩

/-- Sums are one layer: `+` and `-`. -/
theorem isLayer_sum : IsLayer .comparison .sum [(.plus, .add), (.minus, .subtract)] :=
  ⟨fun kind op => by cases kind <;> cases op <;> decide, by decide⟩

/-- Comparisons by size are one layer: `<` and `>`. -/
theorem isLayer_relational :
    IsLayer .equality .comparison [(.less, .less), (.greater, .greater)] :=
  ⟨fun kind op => by cases kind <;> cases op <;> decide, by decide⟩

/-- Comparisons for equality are one layer: `==` and `!=`. -/
theorem isLayer_equality : IsLayer .lowest .equality [(.equal, .equal), (.notEqual, .notEqual)] :=
  ⟨fun kind op => by cases kind <;> cases op <;> decide, by decide⟩

variable {low high : BindingPower} {ops : List (TokenKind × BinaryOp)}
  {operand : Cursor → Outcome Expr}

/-- A token has an operator in a layer just if the operator is spelled like it and is one of the
layer. -/
theorem IsLayer.ahead?_eq_some_iff (h : IsLayer low high ops) {c : Cursor} {op : BinaryOp} :
    ahead? ops c = some op ↔
      op.kind = c.lookahead.kind ∧ low < op.power ∧ ¬ high < op.power := by
  rw [← h.mem_iff]
  constructor
  · intro hop
    obtain ⟨front, back, rfl, -⟩ := List.lookup_eq_some_iff.mp hop
    exact List.mem_append_right front List.mem_cons_self
  · intro hmem
    rcases hop : ahead? ops c with _ | op'
    · -- a token that is in the list has an operator there
      have hnone := List.lookup_eq_none_iff.mp hop _ hmem
      simp at hnone
    · obtain ⟨front, back, rfl, -⟩ := List.lookup_eq_some_iff.mp hop
      have hkind := ((h.mem_iff _ _).mp hmem).1
      have hkind' := ((h.mem_iff _ _).mp (List.mem_append_right front List.mem_cons_self)).1
      rw [BinaryOp.kind_injective (hkind.trans hkind'.symm)]

/-- Where nothing ahead binds more strongly than `high`, the operators ahead are those of the
layer. -/
theorem IsLayer.operatorAhead?_eq (h : IsLayer low high ops) {c : Cursor} (hc : c.Terminated)
    (hhigh : Grammar.standard.operatorAhead? high c = none) :
    Grammar.standard.operatorAhead? low c = ahead? ops c := by
  have hnot := (Grammar.standard_operatorAhead?_eq_none_iff hc).mp hhigh
  ext op
  rw [Grammar.standard_operatorAhead?_eq_some_iff hc, h.ahead?_eq_some_iff]
  constructor
  · rintro ⟨hkind, hlow⟩
    exact ⟨hkind, hlow, hnot op hkind⟩
  · rintro ⟨hkind, hlow, -⟩
    exact ⟨hkind, hlow⟩

/-- **A chain is a climb** over the operators of one layer, if its operands are the expressions one
power up. -/
theorem IsLayer.chainUpTo_eq_climb (h : IsLayer low high ops) {n : Nat} {c : Cursor} {left : Expr}
    (hn : c.tokens.length ≤ n) (hc : c.Terminated)
    (hoperand : ∀ c' : Cursor, c'.Terminated → c'.tokens.length ≤ c.tokens.length →
      operand c' = Grammar.standard.expression high c')
    (hhigh : Grammar.standard.operatorAhead? high c = none) :
    chainUpTo ops operand n left c = Grammar.standard.climb low left c := by
  induction n generalizing c left with
  | zero =>
    have hnil : c.tokens = [] := List.eq_nil_of_length_eq_zero (by omega)
    have hnone : Grammar.standard.operatorAhead? low c = none := by
      simp [Grammar.operatorAhead?, Cursor.atEnd, hnil]
    rw [Grammar.climb_of_none hnone, chainUpTo]
  | succ n ih =>
    have hahead := h.operatorAhead?_eq hc hhigh
    rw [chainUpTo]
    rcases hop : ahead? ops c with _ | op
    · rw [Grammar.climb_of_none (hahead.trans hop)]
    · have hentry := h.ahead?_eq_some_iff.mp hop
      have hpower : Grammar.standard.power c.advance.current.kind = high := by
        rw [Cursor.current_advance, ← hentry.1, Grammar.standard_power_kind,
          h.power _ ((h.mem_iff op.kind op).mpr ⟨rfl, hentry.2⟩)]
      have hlt := Grammar.length_advance_lt (Grammar.atEnd_of_operatorAhead? (hahead.trans hop))
      have hle := c.advance.length_advance_le
      rw [Grammar.climb_of_some (hahead.trans hop), Grammar.operation, hpower,
        ← hoperand c.advance.advance hc.advance.advance (by omega)]
      rcases hright : operand c.advance.advance with ⟨err | right, c'⟩
      · rfl
      · -- the right operand ends where nothing binds more strongly than it does
        have hexp := (hoperand _ hc.advance.advance (by omega)).symm.trans hright
        have hfollows := Grammar.standard.follows_expression high c.advance.advance
        have hterm : c'.Terminated := hc.advance.advance.of_follows hfollows hexp
        have hlen : c'.tokens.length ≤ c.advance.advance.tokens.length := by
          simpa only [hexp] using hfollows.length_le
        simp only [Outcome.andThen_ok, Cursor.current_advance]
        exact ih (by omega) hterm (fun d hd hdle => hoperand d hd (by omega))
          (Grammar.operatorAhead?_of_expression hexp)

/-- **A layer of operators reads the expressions one power down**, if its operands are the
expressions of that power. -/
theorem IsLayer.chain_eq_expression (h : IsLayer low high ops) (hle : low ≤ high) {c : Cursor}
    (hc : c.Terminated)
    (hoperand : ∀ c' : Cursor, c'.Terminated → c'.tokens.length ≤ c.tokens.length →
      operand c' = Grammar.standard.expression high c') :
    chain ops operand c = Grammar.standard.expression low c := by
  rw [chain, hoperand c hc (Nat.le_refl _), Grammar.expression_eq_andThen_climb hle]
  apply Outcome.andThen_congr
  intro left hleft
  have hfollows := Grammar.standard.follows_expression high c
  have hlen := hfollows.length_le
  refine h.chainUpTo_eq_climb (Nat.le_refl _) ?_ (fun c' hc' hle' => hoperand c' hc' (by omega)) ?_
  · exact hc.of_follows hfollows rfl
  · apply Grammar.operatorAhead?_of_expression (e := left) (c := c)
    rw [← hleft]

/-! ### All layers -/

section agreement

variable {unary : Cursor → Outcome Expr} {n : Nat}
  (hunary : ∀ c : Cursor, c.Terminated → c.tokens.length ≤ n →
    unary c = Grammar.standard.expression .product c)
include hunary

/-- Products are the expressions above the power of sums. -/
theorem productOf_eq_expression {c : Cursor} (hc : c.Terminated) (hn : c.tokens.length ≤ n) :
    productOf unary c = Grammar.standard.expression .sum c :=
  isLayer_product.chain_eq_expression (by decide) hc fun c' hc' h => hunary c' hc' (by omega)

/-- Sums are the expressions above the power of comparisons by size. -/
theorem sumOf_eq_expression {c : Cursor} (hc : c.Terminated) (hn : c.tokens.length ≤ n) :
    sumOf unary c = Grammar.standard.expression .comparison c :=
  isLayer_sum.chain_eq_expression (by decide) hc fun _ hc' h =>
    productOf_eq_expression hunary hc' (by omega)

/-- Relations are the expressions above the power of equality. -/
theorem relationalOf_eq_expression {c : Cursor} (hc : c.Terminated) (hn : c.tokens.length ≤ n) :
    relationalOf unary c = Grammar.standard.expression .equality c :=
  isLayer_relational.chain_eq_expression (by decide) hc fun _ hc' h =>
    sumOf_eq_expression hunary hc' (by omega)

/-- Equalities are all expressions. -/
theorem equalityOf_eq_expression {c : Cursor} (hc : c.Terminated) (hn : c.tokens.length ≤ n) :
    equalityOf unary c = Grammar.standard.expression .lowest c :=
  isLayer_equality.chain_eq_expression (by decide) hc fun _ hc' h =>
    relationalOf_eq_expression hunary hc' (by omega)

/-- **A unary expression is an operand**, where the expressions inside it are read alike. -/
theorem unaryOf_eq_operand {c : Cursor} (hc : c.Terminated) (hn : c.advance.tokens.length ≤ n) :
    unaryOf unary c = Grammar.standard.operand Grammar.standard.expression c := by
  have hprefixed : unary c.advance = Grammar.standard.expression .unary c.advance := by
    rw [hunary _ hc.advance hn]
    exact Grammar.standard_expression_eq_of_product_le hc.advance (by decide) (by decide)
  have hgrouped := equalityOf_eq_expression hunary hc.advance hn
  rw [Grammar.standard_operand]
  unfold unaryOf atomOf Grammar.prefixed Grammar.grouped Grammar.primary Token.primary
  dsimp only
  rw [hprefixed, hgrouped]
  cases hkind : c.current.kind
  case integer =>
    rcases Numeral.value? c.current.text with _ | value
    · rfl
    · rfl
  case minus | bang =>
    rw [UnaryOp.ofKind?]
  case identifier | trueWord | falseWord | leftParen =>
    rfl
  all_goals simp only [Token.noOperand, hkind]

end agreement

/-- Unary expressions of any nesting are the expressions above the power of products, by induction
on the nesting. -/
theorem unaryWithin_eq_expression {depth : Nat} {c : Cursor} (hc : c.Terminated)
    (hdepth : c.tokens.length ≤ depth) :
    unaryWithin depth c = Grammar.standard.expression .product c := by
  induction depth generalizing c with
  | zero =>
    have hend : c.atEnd = true := by
      simp [Cursor.atEnd, List.eq_nil_of_length_eq_zero (show c.tokens.length = 0 by omega)]
    rw [Grammar.expression_of_atEnd hend]
    rfl
  | succ depth ih =>
    have hadvance : c.advance.tokens.length ≤ depth := by
      rw [Cursor.tokens_advance, List.length_tail]
      omega
    rw [unaryWithin, unaryOf_eq_operand (fun c' hc' h => ih hc' h) hc hadvance]
    rcases hend : c.atEnd with _ | _
    · rw [Grammar.standard_expression_of_product_le hc hend (by decide)]
    · rw [Grammar.expression_of_atEnd hend, Grammar.standard_operand, hc.atEnd_iff.mp hend]

/-- Unary expressions are the expressions above the power of products. -/
theorem unary_eq_expression {c : Cursor} (hc : c.Terminated) :
    unary c = Grammar.standard.expression .product c :=
  unaryWithin_eq_expression hc (Nat.le_refl _)

/-- **Each layer reads the expressions of the power below it.** -/
theorem above_eq_expression (bp : BindingPower) {c : Cursor} (hc : c.Terminated) :
    above bp c = Grammar.standard.expression bp c := by
  have hunary : ∀ c' : Cursor, c'.Terminated → c'.tokens.length ≤ c.tokens.length →
      unary c' = Grammar.standard.expression .product c' :=
    fun c' hc' _ => unary_eq_expression hc'
  cases bp with
  | lowest => exact equalityOf_eq_expression hunary hc (Nat.le_refl _)
  | equality => exact relationalOf_eq_expression hunary hc (Nat.le_refl _)
  | comparison => exact sumOf_eq_expression hunary hc (Nat.le_refl _)
  | sum => exact productOf_eq_expression hunary hc (Nat.le_refl _)
  | product => exact unary_eq_expression hc
  | unary | call =>
    rw [above, unary_eq_expression hc]
    exact Grammar.standard_expression_eq_of_product_le hc (by decide) (by decide)

/-! ### The counts do not matter -/

/-- The rule for unary expressions without the count of nested ones. -/
theorem unary_eq {c : Cursor} (hc : c.Terminated) : unary c = unaryOf unary c := by
  rw [unaryOf_eq_operand (fun c' hc' _ => unary_eq_expression hc') hc (Nat.le_refl _),
    unary_eq_expression hc]
  rcases hend : c.atEnd with _ | _
  · exact Grammar.standard_expression_of_product_le hc hend (by decide)
  · rw [Grammar.expression_of_atEnd hend, Grammar.standard_operand, hc.atEnd_iff.mp hend]

/-- A chain ends only where no operator of its layer is ahead. -/
theorem IsLayer.ahead?_of_above (h : IsLayer low high ops) {c c' : Cursor} {e : Expr}
    (hc : c.Terminated) (habove : above low c = ⟨.ok e, c'⟩) : ahead? ops c' = none := by
  rw [above_eq_expression low hc] at habove
  have hc' := hc.of_follows (Grammar.standard.follows_expression low c) habove
  have hnone := (Grammar.standard_operatorAhead?_eq_none_iff hc').mp
    (Grammar.operatorAhead?_of_expression habove)
  rw [Option.eq_none_iff_forall_ne_some]
  intro op hop
  obtain ⟨hkind, hlow, -⟩ := h.ahead?_eq_some_iff.mp hop
  exact hnone op hkind hlow

/-! ### Climbing reads what the layers read -/

/-- **Climbing and the layers agree** on every cursor of every text and for every power: they give
the same tree or the same error, and end on the same token. -/
theorem expression_eq_above (text : String) (file : Option String) (n : Nat) (bp : BindingPower) :
    Grammar.standard.expression bp ((Cursor.ofText text file).forward n) =
      above bp ((Cursor.ofText text file).forward n) :=
  (above_eq_expression bp ((Cursor.terminated_ofText text file).forward n)).symm

end Prattle.Layered
