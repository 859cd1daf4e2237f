import Prattle.Expr.Basic
import Prattle.Numeral
import Prattle.Proofs.Lexemes

/-!
# What a rendered expression is scanned into

An expression is `WellFormed` if every node of it fits its token: the token is of the kind that spells
the node, and its text is a spelling of the node that a scanner can cut. `Expr.faces` are kind and
text of the tokens that such an expression is written with, parentheses included.

* **Scanning the rendering gives the faces** (`lexemes_render`), whatever follows it, unless that goes
  on with the last token: only that of a leaf can be gone on with (`Expr.goesOn`).
* Rendering does not look at positions (`render_relocate`).
-/

namespace Prattle

/-! ### Words and numbers as texts -/

/-- The text is a letter or underscore with letters, digits and underscores behind it. -/
def IsWord (s : String) : Prop :=
  ∃ c cs, s.toList = c :: cs ∧ (c.isAlpha ∨ c = '_') ∧ ∀ d ∈ cs, d.isAlphanum ∨ d = '_'

/-- The text is a non-empty run of decimal digits. -/
def IsNumber (s : String) : Prop :=
  s ≠ "" ∧ ∀ c ∈ s.toList, c.isDigit

/-- A digit is one byte, and that byte is a digit. -/
theorem isDigit_toUInt8 {c : Char} (hc : c.isDigit) : c.toNat < 128 ∧ isDigit c.toUInt8 = true := by
  have hrange : 48 ≤ c.toNat ∧ c.toNat ≤ 57 := by
    simpa [Char.isDigit, UInt32.le_iff_toNat_le] using hc
  have hascii : c.toNat < 128 := by omega
  rw [isDigit_iff, toNat_toUInt8_of_ascii hascii]
  exact ⟨hascii, hrange⟩

/-- A letter is one byte, and that byte is a letter. -/
theorem isLetter_toUInt8 {c : Char} (hc : c.isAlpha ∨ c = '_') :
    c.toNat < 128 ∧ isLetter c.toUInt8 = true := by
  have hrange : 97 ≤ c.toNat ∧ c.toNat ≤ 122 ∨ 65 ≤ c.toNat ∧ c.toNat ≤ 90 ∨ c.toNat = 95 := by
    rcases hc with hc | rfl
    · rcases Bool.or_eq_true_iff.mp hc with hupper | hlower
      · exact .inr (.inl (of_decide_eq_true hupper))
      · obtain ⟨hge, hle⟩ := Bool.and_eq_true_iff.mp hlower
        exact .inl ⟨of_decide_eq_true hge, of_decide_eq_true hle⟩
    · exact .inr (.inr rfl)
  have hascii : c.toNat < 128 := by omega
  rw [isLetter_iff, toNat_toUInt8_of_ascii hascii]
  exact ⟨hascii, hrange⟩

/-- A character of a word is one byte, and that byte goes on with a word. -/
theorem isWordByte_toUInt8 {c : Char} (hc : c.isAlphanum ∨ c = '_') :
    c.toNat < 128 ∧ isWordByte c.toUInt8 = true := by
  rw [isWordByte_iff]
  rcases hc with hc | hc
  · rcases Bool.or_eq_true_iff.mp hc with halpha | hdigit
    · exact ⟨(isLetter_toUInt8 (.inl halpha)).1, .inl (isLetter_toUInt8 (.inl halpha)).2⟩
    · exact ⟨(isDigit_toUInt8 hdigit).1, .inr (isDigit_toUInt8 hdigit).2⟩
  · exact ⟨(isLetter_toUInt8 (.inr hc)).1, .inl (isLetter_toUInt8 (.inr hc)).2⟩

/-- The text is scanned as one lexeme of the kind, unless it goes on with a letter, a digit or an
underscore. -/
structure IsLeaf (s : String) (kind : TokenKind) : Prop where
  face : Lexeme.face (bytes s) = (kind, s)
  head : ∃ b run, bytes s = b :: run ∧ isWordByte b = true
  lexemes : ∀ rest : List UInt8, (∀ b ∈ rest.head?, isWordByte b = false) →
    lexemes (bytes s ++ rest) = bytes s :: lexemes rest

/-- **A word is an ASCII text**: a letter or underscore, with bytes of words behind it. -/
theorem IsWord.exists_bytes {s : String} (h : IsWord s) :
    IsAscii s ∧ ∃ b run, bytes s = b :: run ∧ isLetter b = true ∧
      ∀ c ∈ run, isWordByte c = true := by
  obtain ⟨c, cs, hs, hc, hcs⟩ := h
  have hascii : IsAscii s := by
    intro d hd
    rw [hs] at hd
    rcases List.mem_cons.mp hd with rfl | hd
    · exact (isLetter_toUInt8 hc).1
    · exact (isWordByte_toUInt8 (hcs d hd)).1
  refine ⟨hascii, c.toUInt8, cs.map Char.toUInt8, ?_, (isLetter_toUInt8 hc).2, ?_⟩
  · rw [bytes_of_ascii hascii, hs, List.map_cons]
  · intro b hb
    obtain ⟨d, hd, rfl⟩ := List.mem_map.mp hb
    exact (isWordByte_toUInt8 (hcs d hd)).2

/-- **A number is an ASCII text** of digits. -/
theorem IsNumber.exists_bytes {s : String} (h : IsNumber s) :
    IsAscii s ∧ ∃ b run, bytes s = b :: run ∧ isDigit b = true ∧ ∀ c ∈ run, isDigit c = true := by
  obtain ⟨hne, hdigits⟩ := h
  have hascii : IsAscii s := fun c hc => (isDigit_toUInt8 (hdigits c hc)).1
  obtain ⟨c, cs, hs⟩ : ∃ c cs, s.toList = c :: cs :=
    List.exists_cons_of_ne_nil (by simpa using hne)
  refine ⟨hascii, c.toUInt8, cs.map Char.toUInt8, ?_, (isDigit_toUInt8 (hdigits c ?_)).2, ?_⟩
  · rw [bytes_of_ascii hascii, hs, List.map_cons]
  · rw [hs]
    exact List.mem_cons_self
  · intro b hb
    obtain ⟨d, hd, rfl⟩ := List.mem_map.mp hb
    refine (isDigit_toUInt8 (hdigits d ?_)).2
    rw [hs]
    exact List.mem_cons_of_mem _ hd

/-- A word is cut off whole, with the kind of the word. -/
theorem IsWord.face {s : String} (h : IsWord s) : Lexeme.face (bytes s) = (.ofWord s, s) := by
  obtain ⟨hascii, b, run, hbytes, hletter, -⟩ := h.exists_bytes
  have hkind : Lexeme.kind (bytes s) = .ofWord (Lexeme.text (bytes s)) := by
    rw [hbytes, Lexeme.kind, if_pos hletter]
  rw [Lexeme.face, hkind, Lexeme.text_bytes hascii]

/-- A number is cut off whole, as an integer. -/
theorem IsNumber.face {s : String} (h : IsNumber s) : Lexeme.face (bytes s) = (.integer, s) := by
  obtain ⟨hascii, b, run, hbytes, hdigit, -⟩ := h.exists_bytes
  have hkind : Lexeme.kind (bytes s) = .integer := by
    rw [hbytes, Lexeme.kind, isLetter_eq_false_of_isDigit hdigit, if_neg Bool.false_ne_true,
      if_pos hdigit]
  rw [Lexeme.face, hkind, Lexeme.text_bytes hascii]

/-- **A word is scanned as one lexeme**, of the kind the word has. -/
theorem IsWord.isLeaf {s : String} (h : IsWord s) : IsLeaf s (.ofWord s) := by
  obtain ⟨-, b, run, hbytes, hletter, hrun⟩ := h.exists_bytes
  refine ⟨h.face, ⟨b, run, hbytes, isWordByte_iff.mpr (.inl hletter)⟩, ?_⟩
  intro rest hrest
  rw [hbytes]
  exact lexemes_word hletter hrun hrest

/-- A number reaches up to the first byte that is no digit. -/
theorem IsNumber.lexemes {s : String} (h : IsNumber s) {rest : List UInt8}
    (hrest : ∀ b ∈ rest.head?, isDigit b = false) :
    lexemes (bytes s ++ rest) = bytes s :: lexemes rest := by
  obtain ⟨-, b, run, hbytes, hdigit, hrun⟩ := h.exists_bytes
  rw [hbytes]
  exact lexemes_digits hdigit hrun hrest

/-! ### Well-formed expressions -/

namespace Expr

/-- Every node fits its token, at any depth: the token is of the kind that spells the node, and its
text spells the node. -/
def WellFormed : Expr → Prop
  | identifier id =>
    id.token.kind = .identifier ∧ id.token.text = id.name ∧ IsWord id.name ∧
      id.name ∉ TokenKind.reserved.map Prod.fst
  | integer t v _ => t.kind = .integer ∧ IsNumber t.text ∧ Numeral.value? t.text = some v
  | boolean t v _ => t.face = if v then (.trueWord, "true") else (.falseWord, "false")
  | unary t op e _ => t.face = (op.kind, op.spelling) ∧ e.WellFormed
  | binary t op l r _ => t.face = (op.kind, op.spelling) ∧ l.WellFormed ∧ r.WellFormed

/-- Kind and text of the tokens that the expression is written with. -/
def faces : Expr → List (TokenKind × String)
  | identifier id => [id.token.face]
  | integer t .. => [t.face]
  | boolean t .. => [t.face]
  | unary t _ e _ => (.leftParen, "(") :: t.face :: e.faces ++ [(.rightParen, ")")]
  | binary t _ l r _ => (.leftParen, "(") :: l.faces ++ t.face :: r.faces ++ [(.rightParen, ")")]

/-- The expression is a name or a truth value, so its rendering is one word. -/
def isWord : Expr → Bool
  | identifier _ | boolean .. => true
  | _ => false

/-- The expression is an integer, so its rendering is one number. -/
def isInteger : Expr → Bool
  | integer .. => true
  | _ => false

/-- Whether the byte, directly behind the rendering, belongs to its last token. Renderings that end
with a parenthesis take no byte. -/
def goesOn (e : Expr) (b : UInt8) : Bool :=
  e.isWord && isWordByte b || e.isInteger && isDigit b

/-- No tree goes on with a byte that is of no word. -/
theorem goesOn_eq_false (e : Expr) {b : UInt8} (hb : isWordByte b = false) : e.goesOn b = false := by
  rw [goesOn, hb, (Bool.or_eq_false_iff.mp hb).2, Bool.and_false, Bool.and_false]
  rfl

/-- Rendering does not look at positions. -/
theorem render_relocate {f : Position → Position} (e : Expr) : (e.relocate f).render = e.render := by
  induction e with
  | identifier id => rfl
  | integer t v s | boolean t v s => rfl
  | unary t op e s ih => rw [relocate, render, render, ih]
  | binary t op l r s ihl ihr => rw [relocate, render, render, ihl, ihr]

end Expr

/-- A word that is no keyword is an identifier. -/
theorem TokenKind.ofWord_of_not_reserved {s : String} (h : s ∉ reserved.map Prod.fst) :
    ofWord s = .identifier := by
  have hnone : reserved.lookup s = none := by
    rw [List.lookup_eq_none_iff]
    intro entry hentry
    have hne : s ≠ entry.1 := fun heq => h (List.mem_map.mpr ⟨entry, hentry, heq.symm⟩)
    simpa using hne
  rw [ofWord, hnone]
  rfl

/-- The word `true` is a word. -/
theorem isWord_true : IsWord "true" :=
  ⟨'t', ['r', 'u', 'e'], rfl, by decide, fun d hd => .inl (List.all_eq_true.mp rfl d hd)⟩

/-- The word `false` is a word. -/
theorem isWord_false : IsWord "false" :=
  ⟨'f', ['a', 'l', 's', 'e'], rfl, by decide, fun d hd => .inl (List.all_eq_true.mp rfl d hd)⟩

namespace Expr

/-- What a well-formed leaf is written as. -/
theorem WellFormed.isLeaf_identifier {id : Identifier} (h : (identifier id).WellFormed) :
    IsLeaf id.name .identifier := by
  obtain ⟨-, -, hword, hfree⟩ := h
  rw [← TokenKind.ofWord_of_not_reserved hfree]
  exact hword.isLeaf

/-- A well-formed truth value is written as a word. -/
theorem WellFormed.isWord_boolean {t : Token} {v : Bool} {s : Span}
    (h : (boolean t v s).WellFormed) : IsWord t.text := by
  have hface : t.face = if v then (.trueWord, "true") else (.falseWord, "false") := h
  cases v with
  | true =>
    have htext : t.text = "true" := congrArg Prod.snd hface
    rw [htext]
    exact isWord_true
  | false =>
    have htext : t.text = "false" := congrArg Prod.snd hface
    rw [htext]
    exact isWord_false

/-- A well-formed truth value is written as a leaf of its kind. -/
theorem WellFormed.isLeaf_boolean {t : Token} {v : Bool} {s : Span}
    (h : (boolean t v s).WellFormed) : IsLeaf t.text t.kind := by
  have hface : t.face = if v then (.trueWord, "true") else (.falseWord, "false") := h
  have hkind : t.kind = .ofWord t.text := by
    cases v with
    | true =>
      obtain ⟨hkind, htext⟩ := Prod.mk.inj hface
      rw [hkind, htext]
      rfl
    | false =>
      obtain ⟨hkind, htext⟩ := Prod.mk.inj hface
      rw [hkind, htext]
      rfl
  rw [hkind]
  exact h.isWord_boolean.isLeaf

/-- **How a rendering starts**: with a byte of a word if it is a word or a number, with a digit if it is
a number, and otherwise with a parenthesis. -/
theorem WellFormed.head_render {e : Expr} (he : e.WellFormed) :
    ∃ b rest, bytes e.render = b :: rest ∧ (isWordByte b = true ∨ b = '('.toUInt8) ∧
      isWordByte b = (e.isWord || e.isInteger) ∧ isDigit b = e.isInteger := by
  have hword : ∀ {s : String}, IsWord s → ∃ b rest, bytes s = b :: rest ∧ isWordByte b = true ∧
      isDigit b = false := by
    intro s hs
    obtain ⟨-, b, run, hbytes, hletter, -⟩ := hs.exists_bytes
    exact ⟨b, run, hbytes, isWordByte_iff.mpr (.inl hletter), isDigit_eq_false_of_isLetter hletter⟩
  cases e with
  | identifier id =>
    obtain ⟨b, rest, hbytes, hb, hdigit⟩ := hword he.2.2.1
    exact ⟨b, rest, hbytes, .inl hb, hb, hdigit⟩
  | integer t v s =>
    obtain ⟨-, b, run, hbytes, hdigit, -⟩ := he.2.1.exists_bytes
    have hb : isWordByte b = true := isWordByte_iff.mpr (.inr hdigit)
    exact ⟨b, run, hbytes, .inl hb, hb, hdigit⟩
  | boolean t v s =>
    obtain ⟨b, rest, hbytes, hb, hdigit⟩ := hword he.isWord_boolean
    exact ⟨b, rest, hbytes, .inl hb, hb, hdigit⟩
  | unary t op e s =>
    refine ⟨'('.toUInt8, bytes (op.spelling ++ e.render ++ ")"), ?_, .inr rfl, rfl, rfl⟩
    rw [render, String.append_assoc, String.append_assoc, bytes_append, String.append_assoc]
    rfl
  | binary t op l r s =>
    refine ⟨'('.toUInt8, bytes (l.render ++ " " ++ op.spelling ++ " " ++ r.render ++ ")"), ?_,
      .inr rfl, rfl, rfl⟩
    simp only [render, String.append_assoc, bytes_append]
    rfl

end Expr

/-! ### Scanning a rendering -/

/-- A parenthesis is a lexeme whatever follows. -/
theorem lexemes_paren {b : UInt8} (hb : b = '('.toUInt8 ∨ b = ')'.toUInt8) (rest : List UInt8) :
    lexemes (b :: rest) = [b] :: lexemes rest := by
  rcases hb with rfl | rfl
  · exact lexemes_single (by decide) rfl
  · exact lexemes_single (by decide) rfl

/-- A unary operator is a lexeme unless an `=` follows. -/
theorem lexemes_unaryOp (op : UnaryOp) {b : UInt8} {rest : List UInt8} (hb : b ≠ '='.toUInt8) :
    lexemes (bytes op.spelling ++ b :: rest) = bytes op.spelling :: lexemes (b :: rest) := by
  cases op with
  | negate => exact lexemes_single (by decide) rfl
  | not =>
    apply lexemes_single (by decide)
    rw [Lexeme.tail, if_neg (by decide), if_neg (by decide), if_neg]
    simpa using fun _ => hb

/-- A binary operator before a space is a lexeme. -/
theorem lexemes_binaryOp (op : BinaryOp) (rest : List UInt8) :
    lexemes (bytes op.spelling ++ ' '.toUInt8 :: rest) =
      bytes op.spelling :: lexemes (' '.toUInt8 :: rest) := by
  cases op
  case equal | notEqual => exact lexemes_cons (by decide) _
  all_goals exact lexemes_single (by decide) rfl

/-- What starts a leaf or a group is no `=`. -/
theorem ne_equals_of_starts {b : UInt8} (hb : isWordByte b = true ∨ b = '('.toUInt8) :
    b ≠ '='.toUInt8 := by
  rintro rfl
  exact absurd hb (by decide)

/-- A unary operator is cut off whole, with its kind. -/
theorem face_unaryOp (op : UnaryOp) :
    Lexeme.face (bytes op.spelling) = (op.kind, op.spelling) := by
  cases op <;> rfl

/-- A binary operator is cut off whole, with its kind. -/
theorem face_binaryOp (op : BinaryOp) :
    Lexeme.face (bytes op.spelling) = (op.kind, op.spelling) := by
  cases op <;> rfl

/-- The bytes of a unary operator with its operand, with more behind them. -/
theorem bytes_render_unary (t : Token) (op : UnaryOp) (e : Expr) (s : Span) (rest : List UInt8) :
    bytes (Expr.unary t op e s).render ++ rest =
      '('.toUInt8 :: (bytes op.spelling ++ (bytes e.render ++ (')'.toUInt8 :: rest))) := by
  simp only [Expr.render, bytes_append, List.append_assoc]
  rfl

/-- The bytes of a binary operator with its operands, with more behind them. -/
theorem bytes_render_binary (t : Token) (op : BinaryOp) (l r : Expr) (s : Span)
    (rest : List UInt8) :
    bytes (Expr.binary t op l r s).render ++ rest =
      '('.toUInt8 :: (bytes l.render ++ (' '.toUInt8 :: (bytes op.spelling ++
        (' '.toUInt8 :: (bytes r.render ++ (')'.toUInt8 :: rest)))))) := by
  simp only [Expr.render, bytes_append, List.append_assoc]
  rfl

/-- **Scanning a rendering gives the tokens that the expression is written with.** -/
theorem lexemes_render {e : Expr} (he : e.WellFormed) {rest : List UInt8}
    (hrest : ∀ b ∈ rest.head?, e.goesOn b = false) :
    (lexemes (bytes e.render ++ rest)).map Lexeme.face =
      e.faces ++ (lexemes rest).map Lexeme.face := by
  -- behind an operand stands a blank or `)`, with which no lexeme goes on
  have hstop : ∀ (e : Expr) {b : UInt8} {bs : List UInt8}, isWordByte b = false →
      ∀ c ∈ (b :: bs).head?, e.goesOn c = false := by
    rintro e b bs hb c ⟨⟩
    exact e.goesOn_eq_false hb
  have hword : ∀ {b : UInt8}, (isWordByte b || false) = false → isWordByte b = false :=
    fun h => (Bool.or_eq_false_iff.mp h).1
  induction e generalizing rest with
  | identifier id =>
    have hleaf := he.isLeaf_identifier
    obtain ⟨hkind, htext, -, -⟩ := he
    rw [Expr.render, hleaf.lexemes rest fun b hb => hword (hrest b hb), List.map_cons, hleaf.face,
      Expr.faces, Token.face, hkind, htext]
    rfl
  | integer t v s =>
    obtain ⟨hkind, hnumber, -⟩ := he
    rw [Expr.render, hnumber.lexemes hrest, List.map_cons, hnumber.face, Expr.faces, Token.face,
      hkind]
    rfl
  | boolean t v s =>
    have hleaf := he.isLeaf_boolean
    rw [Expr.render, hleaf.lexemes rest fun b hb => hword (hrest b hb), List.map_cons, hleaf.face]
    rfl
  | unary t op e s ih =>
    obtain ⟨hface, he⟩ := he
    obtain ⟨b, more, hbytes, hb, -, -⟩ := he.head_render
    have hop : lexemes (bytes op.spelling ++ (bytes e.render ++ ')'.toUInt8 :: rest)) =
        bytes op.spelling :: lexemes (bytes e.render ++ ')'.toUInt8 :: rest) := by
      rw [hbytes]
      exact lexemes_unaryOp op (ne_equals_of_starts hb)
    rw [bytes_render_unary, lexemes_paren (.inl rfl), List.map_cons, hop, List.map_cons,
      face_unaryOp, ih he (hstop e (by decide)), lexemes_paren (.inr rfl), List.map_cons, Expr.faces,
      hface]
    simp only [List.cons_append, List.append_assoc]
    rfl
  | binary t op l r s ihl ihr =>
    obtain ⟨hface, hl, hr⟩ := he
    rw [bytes_render_binary, lexemes_paren (.inl rfl), List.map_cons, ihl hl (hstop l (by decide)),
      lexemes_blank (by decide), lexemes_binaryOp, List.map_cons, face_binaryOp,
      lexemes_blank (by decide), ihr hr (hstop r (by decide)), lexemes_paren (.inr rfl),
      List.map_cons, Expr.faces, hface]
    simp only [List.cons_append, List.append_assoc]
    rfl

end Prattle
