import Prattle.Source.Position
import Prattle.Token.Kind

/-!
# Tokens

A `Token` is a kind, the text it was read from and the span of that text. `Token.describe` shows it
over several lines, without its span.
-/

namespace Prattle

/-- A piece of the source text with its meaning. -/
structure Token where
  kind : TokenKind
  /-- How the piece reads. -/
  text : String
  /-- Where the piece stands. -/
  span : Span
  deriving DecidableEq, Inhabited

namespace Token

/-- Marks the end of the text. -/
def isEnd (t : Token) : Bool :=
  t.kind = .endOfInput

/-- Whether the token is of one of the given kinds. -/
def isOneOf (t : Token) (kinds : List TokenKind) : Bool :=
  kinds.contains t.kind

/-- Kind and text of the token, each on a line. -/
def describe (t : Token) : String :=
  "Token \x7b\nkind: " ++ t.kind.name ++ ",\nvalue: " ++ t.text ++ "\x7d"

end Token

end Prattle
