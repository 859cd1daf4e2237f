import Prattle.Source.Position
import Prattle.Text.Quoted
import Prattle.Token.Kind

/-!
# Syntax errors

A `SyntaxError` is a `Cause` and the place it is blamed on. `Cause.name` and `Cause.message` are the
words of a report about it.
-/

namespace Prattle

/-- What is wrong with a source text. -/
inductive Cause where
  /-- The next token had to be of kind `expected` and is of kind `found`. -/
  | unexpected (expected found : TokenKind)
  /-- An expression has to start at a token of a kind that starts none. -/
  | noOperand (kind : TokenKind)
  /-- An integer literal has no value. -/
  | badNumeral (literal : String)
  deriving DecidableEq, Inhabited

namespace Cause

/-- The name of the kind of error. -/
def name : Cause → String
  | unexpected .. => "ExpectedToken"
  | noOperand .. => "NoPrefixParseFn"
  | badNumeral .. => "IntegerParse"

/-- What is wrong, in a sentence. -/
def message : Cause → String
  | unexpected expected found =>
    "expected next token is " ++ expected.name ++ ", got " ++ found.name ++ " instead"
  | noOperand kind => "no prefix parse function for " ++ kind.name ++ " found"
  | badNumeral literal => "could not parse " ++ Text.quoted literal ++ " as integer"

end Cause

/-- What is wrong, and where. -/
structure SyntaxError where
  cause : Cause
  position : Position
  deriving DecidableEq, Inhabited

/-- What is wrong, in a sentence. -/
def SyntaxError.message (e : SyntaxError) : String :=
  e.cause.message

end Prattle
