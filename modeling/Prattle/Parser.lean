import Prattle.Log
import Prattle.Stmt.Reading

/-!
# Parsers

A `Parser` reads one text step by step and keeps what it meets: its cursor, the errors recorded so
far and the log. Its grammar may be changed between any two steps. `Parser.read` lifts any reading
from a cursor to a step, which moves the parser to where the reading ended whether it succeeded or
not; only the statement steps record errors. `parse` reads a whole text by the standard grammar.

The parser scans one token ahead of its current one, so the log tells of a token when the cursor is
one step before it (`Parser.moveTo`).
-/

namespace Prattle

/-- The state of reading a text. -/
structure Parser where
  /-- By which roles of the kinds of token it reads. -/
  grammar : Grammar
  /-- Where it stands. -/
  cursor : Cursor
  /-- The errors recorded so far, the first one first. -/
  errors : Array SyntaxError
  /-- What was done so far. -/
  log : Array Log.Record

/-- How many tokens a parser has scanned when it stands on its current one: that one and the
next. -/
def Parser.window : Nat := 2

namespace Parser

/-- The parser on the first token of what a scanner has left, with the standard grammar. -/
def ofScanner (s : Scanner) : Parser :=
  let c := Cursor.ofScanner s
  ⟨.standard, c, #[], ((c.tokens.take window).map Log.Record.scanned).toArray⟩

/-- The parser at the start of a text. -/
def ofText (text : String) (file : Option String) : Parser :=
  ofScanner (.ofText text file)

/-! ### Steps -/

/-- The parser at a later cursor of its text. The tokens that came into view on the way are logged:
as many as there were steps, unless the text ended before. -/
def moveTo (p : Parser) (c : Cursor) : Parser :=
  let seen := (p.cursor.tokens.drop window).take (c.index - p.cursor.index)
  { p with cursor := c, log := p.log ++ seen.map Log.Record.scanned }

/-- The parser on its next token. -/
def advance (p : Parser) : Parser :=
  p.moveTo p.cursor.advance

/-- The parser with one more error. -/
def record (p : Parser) (e : SyntaxError) : Parser :=
  { p with errors := p.errors.push e, log := p.log.push (.failed e) }

/-- The parser with a statement logged. -/
def announce (p : Parser) (s : Stmt) : Parser :=
  { p with log := p.log.push (.parsed s) }

/-- What a reading from the cursor gives, and the parser where it ended. -/
def read {α : Type} (p : Parser) (reading : Cursor → Outcome α) : Except SyntaxError α × Parser :=
  let r := reading p.cursor
  (r.result, p.moveTo r.cursor)

/-- The next token if it is of the given kind; otherwise the parser stays. -/
def expect (p : Parser) (kind : TokenKind) : Except SyntaxError Token × Parser :=
  match p.cursor.expect kind with
  | .ok c => (.ok c.current, p.moveTo c)
  | .error e => (.error e, p)

/-- What was read, and the parser after it with its failure recorded. -/
def take {α : Type} (p : Parser) (r : Reading α) : α × Parser :=
  match r.failure? with
  | none => (r.value, p.moveTo r.cursor)
  | some f => (r.value, ((p.moveTo f.cursor).record f.error).moveTo r.cursor)

/-- The expression statement at the current token. -/
def expressionStatement (p : Parser) : Stmt × Parser :=
  p.take (p.grammar.expressionStatement p.cursor)

/-- The statement at the current token, unless it had to be dropped. -/
def statement (p : Parser) : Option Stmt × Parser :=
  p.take (p.grammar.statement p.cursor)

/-- The parser after a statement: on the token that follows, with the statement logged. -/
def pass (p : Parser) (r : Reading (Option Stmt)) : Parser :=
  let (s?, p) := p.take r
  (s?.elim p p.announce).advance

/-- The statements that are left, and the parser at the end of the text. -/
def program (p : Parser) : Program × Parser :=
  let readings := p.grammar.statements p.cursor
  (⟨readings.filterMap (·.value)⟩, readings.foldl pass p)

/-! ### Changing the grammar -/

/-- The parser for which a binary operator binds with the given power. -/
def withOperator (p : Parser) (op : BinaryOp) (power : BindingPower) : Parser :=
  { p with grammar := p.grammar.withOperator op power }

/-- The parser that reads operands at the kind by the given rule. -/
def withOperand (p : Parser) (kind : TokenKind) (rule : OperandRule) : Parser :=
  { p with grammar := p.grammar.withOperand kind rule }

/-- The parser that reads statements at the kind by the given rule. -/
def withStatement (p : Parser) (kind : TokenKind) (rule : StatementRule) : Parser :=
  { p with grammar := p.grammar.withStatement kind rule }

end Parser

/-- The program that a text is, and everything that is wrong with the text. Statements that had to be
dropped are missing from the program. -/
def parse (text : String) (file : Option String) : Program × List SyntaxError :=
  let (program, p) := (Parser.ofText text file).program
  (program, p.errors.toList)

/-- The log of reading a text. -/
def Log.ofParsing (text : String) (file : Option String) : List Log.Record :=
  (Parser.ofText text file).program.2.log.toList

end Prattle
