import Prattle.Token.Kind

/-!
# Lexemes

A lexeme is the list of bytes of one token. `Lexeme.tail` says how far the lexeme that starts with
a given byte reaches, `Lexeme.kind` and `Lexeme.text` what a lexeme stands for and how it reads. The
kind depends on the bytes of the lexeme alone, never on what follows them.
-/

namespace Prattle

/-- The bytes that separate tokens and are otherwise skipped: space, tab, line feed and carriage
return. -/
def isBlank (b : UInt8) : Bool :=
  b == ' '.toUInt8 || b == '\t'.toUInt8 || b == '\n'.toUInt8 || b == '\r'.toUInt8

/-- The decimal digits. -/
def isDigit (b : UInt8) : Bool :=
  '0'.toUInt8 ≤ b && b ≤ '9'.toUInt8

/-- The bytes that start a word: the ASCII letters and the underscore. -/
def isLetter (b : UInt8) : Bool :=
  ('a'.toUInt8 ≤ b && b ≤ 'z'.toUInt8) || ('A'.toUInt8 ≤ b && b ≤ 'Z'.toUInt8) ||
    b == '_'.toUInt8

/-- The bytes that continue a word. -/
def isWordByte (b : UInt8) : Bool :=
  isLetter b || isDigit b

/-- The bytes that make one token with an `=` directly after them. -/
def takesEquals (b : UInt8) : Bool :=
  b == '='.toUInt8 || b == '!'.toUInt8

namespace Lexeme

/-- The bytes of `rest` that belong to the lexeme starting with `b`: as many as the longest lexeme
takes. -/
def tail (b : UInt8) (rest : List UInt8) : List UInt8 :=
  if isLetter b then rest.takeWhile isWordByte
  else if isDigit b then rest.takeWhile isDigit
  else if takesEquals b && rest.head? == some '='.toUInt8 then rest.take 1
  else []

/-- What follows the lexeme starting with `b`. -/
def after (b : UInt8) (rest : List UInt8) : List UInt8 :=
  rest.drop (tail b rest).length

/-- How a byte reads: as its character in ASCII, as the replacement character beyond. -/
def char (b : UInt8) : Char :=
  if b < 128 then Char.ofUInt8 b else '\ufffd'

/-- How a lexeme reads. -/
def text (lexeme : List UInt8) : String :=
  String.ofList (lexeme.map char)

/-- The kind of token that a lexeme stands for. -/
def kind : List UInt8 → TokenKind
  | [] => .endOfInput
  | b :: tail =>
    if isLetter b then .ofWord (text (b :: tail))
    else if isDigit b then .integer
    else if b = '='.toUInt8 then if tail.isEmpty then .assign else .equal
    else if b = '!'.toUInt8 then if tail.isEmpty then .bang else .notEqual
    else (TokenKind.ofPunctuation? b).getD .illegal

/-- What a lexeme goes on with is cut off the front of what is left. -/
theorem tail_isPrefix (b : UInt8) (rest : List UInt8) : tail b rest <+: rest := by
  unfold tail
  split
  · exact List.takeWhile_prefix _
  · split
    · exact List.takeWhile_prefix _
    · split
      · exact List.take_prefix _ _
      · exact List.nil_prefix

/-- A lexeme is the start of what it was cut from. -/
theorem tail_append_after (b : UInt8) (rest : List UInt8) : tail b rest ++ after b rest = rest :=
  (List.prefix_iff_eq_append.mp (tail_isPrefix b rest))

/-- Cutting a lexeme off leaves no more bytes than before. -/
theorem length_after_le (b : UInt8) (rest : List UInt8) : (after b rest).length ≤ rest.length := by
  simp [after]

end Lexeme

end Prattle
