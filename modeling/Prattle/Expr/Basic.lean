import Prattle.Expr.Operator
import Prattle.Token.Basic

/-!
# Expressions

An `Expr` is a tree over the tokens it was read from. Parentheses leave no node, so `Expr.render`
writes them around every operation: the text shows the shape of the tree and nothing else.
-/

namespace Prattle

/-- A name and the token that spells it. -/
structure Identifier where
  token : Token
  name : String
  span : Span
  deriving DecidableEq, Inhabited

/-- The name that a token spells, standing where the token stands. -/
def Identifier.ofToken (t : Token) : Identifier :=
  ⟨t, t.text, t.span⟩

/-- An expression. Every node keeps the token that decided what it is, and its span. -/
inductive Expr where
  | identifier (id : Identifier)
  | integer (token : Token) (value : Int64) (span : Span)
  | boolean (token : Token) (value : Bool) (span : Span)
  | unary (token : Token) (op : UnaryOp) (operand : Expr) (span : Span)
  | binary (token : Token) (op : BinaryOp) (left right : Expr) (span : Span)
  deriving DecidableEq, Inhabited

namespace Expr

/-- The token that decided what the node is: the leaf itself, or the operator. -/
def token : Expr → Token
  | identifier id => id.token
  | integer t .. => t
  | boolean t .. => t
  | unary t .. => t
  | binary t .. => t

/-- Where the expression stands. -/
def span : Expr → Span
  | identifier id => id.span
  | integer _ _ s => s
  | boolean _ _ s => s
  | unary _ _ _ s => s
  | binary _ _ _ _ s => s

/-- The text of the expression with parentheses around every operation. Literals are written as they
were read, an identifier by its name. -/
def render : Expr → String
  | identifier id => id.name
  | integer t .. => t.text
  | boolean t .. => t.text
  | unary _ op e _ => "(" ++ op.spelling ++ e.render ++ ")"
  | binary _ op l r _ => "(" ++ l.render ++ " " ++ op.spelling ++ " " ++ r.render ++ ")"

end Expr

end Prattle
