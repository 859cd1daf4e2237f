import Prattle.SyntaxError
import Prattle.Stmt.Basic
import Prattle.Token.Scanner

/-!
# The log

What is done to a text is logged as a list of `Log.Record`s in the order it is done: which tokens
are scanned, which errors are found and which statements are read. `level` and `message` are a
record in words. `Log.ofTokenizing` is the log of cutting a text into tokens, `Log.ofParsing`, beside
the parser, that of reading it.
-/

namespace Prattle.Log

/-- One thing that was done. -/
inductive Record where
  /-- A token was scanned. -/
  | scanned (token : Token)
  /-- An error was found. -/
  | failed (error : SyntaxError)
  /-- A statement was read. -/
  | parsed (statement : Stmt)
  deriving DecidableEq, Inhabited

namespace Record

/-- How much detail the record is: single tokens are finer than what they make up. -/
def level : Record → String
  | scanned _ => "TRACE"
  | failed _ | parsed _ => "DEBUG"

/-- The record in words. -/
def message : Record → String
  | scanned t => "scanned " ++ t.kind.name ++ " " ++ Text.quoted t.text
  | failed e => "parse error at " ++ toString e.position.offset.toNat ++ ": " ++ e.message
  | parsed s => "parsed statement `" ++ s.render ++ "`"

end Record

/-- The log of cutting a text into tokens: every token but the end token. -/
def ofTokenizing (text : String) (file : Option String) : List Record :=
  (Scanner.ofText text file).tokens.map .scanned

end Prattle.Log
