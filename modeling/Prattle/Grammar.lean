import Prattle.Expr.Operator

/-!
# Grammars

A `Grammar` says, kind of token by kind of token, how a text is read: which kinds start a statement
of their own, how an operand starts at a token of the kind, which binary operator the kind spells
between operands, and how strongly that operator binds. A kind without an entry has no such role.

`Grammar.standard` is the grammar of the language. `withOperator`, `withOperand` and
`withStatement` change one entry each; `withOperator` enters the operator and its binding power
together, so the two tables name the same kinds in every grammar that is made from the standard one.
-/

namespace Prattle

/-- How strongly an operator binds its operands, the weakest first. -/
inductive BindingPower where
  | lowest
  | equality
  | comparison
  | sum
  | product
  | unary
  | call
  deriving DecidableEq, Inhabited

namespace BindingPower

/-- The place of the power in the order of the definition. -/
def level : BindingPower → Nat
  | lowest => 0
  | equality => 1
  | comparison => 2
  | sum => 3
  | product => 4
  | unary => 5
  | call => 6

instance : LT BindingPower := ⟨fun a b => a.level < b.level⟩

instance : LE BindingPower := ⟨fun a b => a.level ≤ b.level⟩

instance (a b : BindingPower) : Decidable (a < b) := inferInstanceAs (Decidable (a.level < b.level))

instance (a b : BindingPower) : Decidable (a ≤ b) := inferInstanceAs (Decidable (a.level ≤ b.level))

/-- One power is weaker than another if its level is lower. -/
theorem lt_def {a b : BindingPower} : a < b ↔ a.level < b.level := Iff.rfl

/-- One power is no stronger than another if its level is no higher. -/
theorem le_def {a b : BindingPower} : a ≤ b ↔ a.level ≤ b.level := Iff.rfl

end BindingPower

/-- How strongly an operator binds in the language itself. -/
def BinaryOp.power : BinaryOp → BindingPower
  | equal | notEqual => .equality
  | less | greater => .comparison
  | add | subtract => .sum
  | multiply | divide => .product

/-- How an operand is read. -/
inductive OperandRule where
  /-- The token alone is the operand: a name, an integer or a truth value. -/
  | primary
  /-- The token is a unary operator, and its operand follows. -/
  | prefixed
  /-- The token opens a group that ends in `)`. -/
  | grouped
  deriving DecidableEq, Inhabited

/-- How a statement that is no expression is read. -/
inductive StatementRule where
  /-- A name, `=` and a value. -/
  | binding
  /-- A value. -/
  | returning
  deriving DecidableEq, Inhabited

/-- The roles that the kinds of token have. -/
structure Grammar where
  /-- How a statement starting with the kind is read, unless it is an expression. -/
  statement? : TokenKind → Option StatementRule
  /-- How an operand starting with the kind is read. -/
  operand? : TokenKind → Option OperandRule
  /-- The operator that the kind spells between operands. -/
  operator? : TokenKind → Option BinaryOp
  /-- How strongly the operator of the kind binds. -/
  power? : TokenKind → Option BindingPower

namespace Grammar

/-- The grammar of the language. -/
def standard : Grammar where
  statement?
    | .letWord => some .binding
    | .returnWord => some .returning
    | _ => none
  operand?
    | .identifier | .integer | .trueWord | .falseWord => some .primary
    | .minus | .bang => some .prefixed
    | .leftParen => some .grouped
    | _ => none
  operator? := BinaryOp.ofKind?
  power? kind := (BinaryOp.ofKind? kind).map BinaryOp.power

/-- How strongly a token of the kind binds what stands before it; a kind without an entry binds
nothing. -/
def power (g : Grammar) (kind : TokenKind) : BindingPower :=
  (g.power? kind).getD .lowest

/-- The grammar in which a binary operator binds with the given power. -/
def withOperator (g : Grammar) (op : BinaryOp) (power : BindingPower) : Grammar :=
  { g with
    operator? := fun kind => if kind = op.kind then some op else g.operator? kind
    power? := fun kind => if kind = op.kind then some power else g.power? kind }

/-- The grammar in which operands at the kind are read by the given rule. -/
def withOperand (g : Grammar) (kind : TokenKind) (rule : OperandRule) : Grammar :=
  { g with operand? := fun k => if k = kind then some rule else g.operand? k }

/-- The grammar in which statements at the kind are read by the given rule. -/
def withStatement (g : Grammar) (kind : TokenKind) (rule : StatementRule) : Grammar :=
  { g with statement? := fun k => if k = kind then some rule else g.statement? k }

end Grammar

end Prattle
