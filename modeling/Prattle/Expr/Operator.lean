import Prattle.Token.Kind

/-!
# Operators

The unary and the binary operators. Each is spelled by tokens of one kind: `UnaryOp.ofKind?` and
`BinaryOp.ofKind?` read the operator off the kind, `kind` goes back.
-/

namespace Prattle

/-- An operator before its operand. -/
inductive UnaryOp where
  | negate
  | not
  deriving DecidableEq, Inhabited

namespace UnaryOp

/-- The kind of token that spells the operator. -/
def kind : UnaryOp → TokenKind
  | negate => .minus
  | not => .bang

/-- How the operator is written. -/
def spelling : UnaryOp → String
  | negate => "-"
  | not => "!"

/-- The operator that tokens of a kind spell. -/
def ofKind? : TokenKind → Option UnaryOp
  | .minus => some negate
  | .bang => some not
  | _ => none

/-- A kind is read as the unary operator that it spells, and as no other. -/
theorem ofKind?_eq_some_iff {kind : TokenKind} {op : UnaryOp} :
    ofKind? kind = some op ↔ op.kind = kind := by
  cases kind <;> cases op <;> simp [ofKind?, UnaryOp.kind]

end UnaryOp

/-- An operator between its operands. -/
inductive BinaryOp where
  | add
  | subtract
  | multiply
  | divide
  | less
  | greater
  | equal
  | notEqual
  deriving DecidableEq, Inhabited

namespace BinaryOp

/-- The kind of token that spells the operator. -/
def kind : BinaryOp → TokenKind
  | add => .plus
  | subtract => .minus
  | multiply => .star
  | divide => .slash
  | less => .less
  | greater => .greater
  | equal => .equal
  | notEqual => .notEqual

/-- How the operator is written. -/
def spelling : BinaryOp → String
  | add => "+"
  | subtract => "-"
  | multiply => "*"
  | divide => "/"
  | less => "<"
  | greater => ">"
  | equal => "=="
  | notEqual => "!="

/-- The operator that tokens of a kind spell. -/
def ofKind? : TokenKind → Option BinaryOp
  | .plus => some add
  | .minus => some subtract
  | .star => some multiply
  | .slash => some divide
  | .less => some less
  | .greater => some greater
  | .equal => some equal
  | .notEqual => some notEqual
  | _ => none

/-- A kind is read as the binary operator that it spells, and as no other. -/
theorem ofKind?_eq_some_iff {kind : TokenKind} {op : BinaryOp} :
    ofKind? kind = some op ↔ op.kind = kind := by
  cases kind <;> cases op <;> simp [ofKind?, BinaryOp.kind]

/-- No two operators are spelled alike. -/
theorem kind_injective {op op' : BinaryOp} (h : op.kind = op'.kind) : op = op' :=
  Option.some.inj ((ofKind?_eq_some_iff.mpr h).symm.trans (ofKind?_eq_some_iff.mpr rfl))

/-- A kind that is read as no operator spells none. -/
theorem kind_ne_of_ofKind?_eq_none {kind : TokenKind} (h : ofKind? kind = none) (op : BinaryOp) :
    op.kind ≠ kind := by
  intro heq
  rw [ofKind?_eq_some_iff.mpr heq] at h
  cases h

end BinaryOp

end Prattle
