import Prattle.Expr.Basic

/-!
# Statements and programs

A `Stmt` is a binding, a return or an expression; a `Program` is a list of statements. The place of
its value or expression may be empty. `Program.render` writes the statements one after the other
with nothing between them.
-/

namespace Prattle

/-- A statement. It keeps its first token, and its span. -/
inductive Stmt where
  /-- A name bound to a value. -/
  | binding (token : Token) (name : Identifier) (value : Option Expr) (span : Span)
  /-- A value returned. -/
  | returning (token : Token) (value : Option Expr) (span : Span)
  /-- An expression on its own. -/
  | expression (token : Token) (value : Option Expr) (span : Span)
  deriving DecidableEq, Inhabited

namespace Stmt

/-- The first token of the statement. -/
def token : Stmt → Token
  | binding t .. => t
  | returning t .. => t
  | expression t .. => t

/-- Where the statement stands. -/
def span : Stmt → Span
  | binding _ _ _ s => s
  | returning _ _ s => s
  | expression _ _ s => s

/-- The value or expression of the statement. -/
def value? : Stmt → Option Expr
  | binding _ _ v _ => v
  | returning _ v _ => v
  | expression _ v _ => v

/-- The text of the statement; an empty place is left empty. -/
def render : Stmt → String
  | binding t name v _ => t.text ++ " " ++ name.name ++ " = " ++ v.elim "" Expr.render ++ ";"
  | returning t v _ => t.text ++ " " ++ v.elim "" Expr.render ++ ";"
  | expression _ v _ => v.elim "" Expr.render

end Stmt

/-- A sequence of statements. -/
structure Program where
  statements : List Stmt
  deriving DecidableEq, Inhabited

namespace Program

/-- The text of the first token of the program, empty for an empty program. -/
def literal (p : Program) : String :=
  p.statements.head?.elim "" (·.token.text)

/-- The text of the program. -/
def render (p : Program) : String :=
  String.join (p.statements.map Stmt.render)

end Program

end Prattle
