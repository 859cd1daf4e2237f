/-!
# Kinds of token

`TokenKind` lists the kinds, in the order of their definition in `TokenKind.all`, and
`TokenKind.name` is the name that messages use. The kind of a word comes from the table of reserved
words (`TokenKind.ofWord`), that of a single punctuation byte from `TokenKind.ofPunctuation?`.
-/

namespace Prattle

/-- What a token is. -/
inductive TokenKind where
  /-- A byte that starts no other token. -/
  | illegal
  /-- The end of the text. -/
  | endOfInput
  /-- A word that is not reserved. -/
  | identifier
  /-- A run of digits. -/
  | integer
  | assign
  | plus
  | minus
  | star
  | slash
  | bang
  | less
  | greater
  | equal
  | notEqual
  | comma
  | semicolon
  | leftParen
  | rightParen
  | leftBrace
  | rightBrace
  | fnWord
  | letWord
  | trueWord
  | falseWord
  | ifWord
  | elseWord
  | returnWord
  deriving DecidableEq, Inhabited

namespace TokenKind

/-- Every kind, in the order of the definition. -/
def all : List TokenKind :=
  [illegal, endOfInput, identifier, integer, assign, plus, minus, star, slash, bang, less, greater,
    equal, notEqual, comma, semicolon, leftParen, rightParen, leftBrace, rightBrace, fnWord,
    letWord, trueWord, falseWord, ifWord, elseWord, returnWord]

/-- The list of kinds is complete. -/
theorem mem_all (kind : TokenKind) : kind ∈ all := by
  cases kind <;> decide

/-- The name of a kind in messages: operators and punctuation stand for themselves. -/
def name : TokenKind → String
  | illegal => "ILLEGAL"
  | endOfInput => "EOF"
  | identifier => "IDENT"
  | integer => "INT"
  | assign => "="
  | plus => "+"
  | minus => "-"
  | star => "*"
  | slash => "/"
  | bang => "!"
  | less => "<"
  | greater => ">"
  | equal => "=="
  | notEqual => "!="
  | comma => ","
  | semicolon => ";"
  | leftParen => "("
  | rightParen => ")"
  | leftBrace => "\x7b"
  | rightBrace => "\x7d"
  | fnWord => "FUNCTION"
  | letWord => "LET"
  | trueWord => "TRUE"
  | falseWord => "FALSE"
  | ifWord => "IF"
  | elseWord => "ELSE"
  | returnWord => "RETURN"

/-- The reserved words and their kinds. -/
def reserved : List (String × TokenKind) :=
  [("fn", fnWord), ("let", letWord), ("true", trueWord), ("false", falseWord), ("if", ifWord),
    ("else", elseWord), ("return", returnWord)]

/-- The kind of a word: its own if the word is reserved, otherwise that of a name. -/
def ofWord (word : String) : TokenKind :=
  (reserved.lookup word).getD identifier

/-- The kinds that reserved words have. -/
def isReserved (kind : TokenKind) : Bool :=
  reserved.any (·.2 = kind)

/-- The kinds that one byte spells whatever follows it. `=` and `!` are not among them, because
another `=` may belong to their token. -/
def ofPunctuation? (b : UInt8) : Option TokenKind :=
  match Char.ofUInt8 b with
  | ';' => some semicolon
  | '(' => some leftParen
  | ')' => some rightParen
  | '\x7b' => some leftBrace
  | '\x7d' => some rightBrace
  | ',' => some comma
  | '+' => some plus
  | '-' => some minus
  | '*' => some star
  | '/' => some slash
  | '<' => some less
  | '>' => some greater
  | _ => none

end TokenKind

end Prattle
