import Prattle.Proofs.Rendering

/-!
# How tokens are spelled

`Spells kind s` says in characters, without a scanner, that the text `s` is a spelling of the kind:
a reserved word of its own kind, any other word of a name, a run of digits of an integer, an operator
or a punctuation mark of the kind that is named so, and any other ASCII character of the kind
`illegal`. `Lexeme.Is` adds the bytes beyond ASCII, each of which is an illegal token of its own, and
`Lexeme.Stops` says that a lexeme ends where it has to: nothing behind it goes on with it.

* **The kind of a token is a function of its text** (`Spells.face`).
* **A scanner cuts lexemes, each as long as it can be** (`Lexeme.is_tail`, `Lexeme.stops_tail`).
* **There is no other way to cut one off** (`Lexeme.eq_of_stops`), so a spelling that nothing goes on
  with is scanned as one token (`Spells.lexemes`).
-/

namespace Prattle

/-! ### Spellings -/

/-- The bytes that may stand between tokens: space, tab, line feed and carriage return. -/
def blankBytes : List UInt8 :=
  [0x20, 0x09, 0x0a, 0x0d]

/-- The reserved words, each with the kind that it has of its own. -/
def keywords : List (String × TokenKind) :=
  [("fn", .fnWord), ("let", .letWord), ("true", .trueWord), ("false", .falseWord), ("if", .ifWord),
    ("else", .elseWord), ("return", .returnWord)]

/-- The kinds of the operators and of the punctuation marks. Each is spelled by its name. -/
def TokenKind.symbols : List TokenKind :=
  [assign, plus, minus, star, slash, bang, less, greater, equal, notEqual, comma, semicolon,
    leftParen, rightParen, leftBrace, rightBrace]

/-- The text is a spelling of tokens of the kind. -/
inductive Spells : TokenKind → String → Prop
  | reserved {kind : TokenKind} {s : String} (entry : (s, kind) ∈ keywords) : Spells kind s
  | name {s : String} (word : IsWord s) (free : s ∉ keywords.map Prod.fst) : Spells .identifier s
  | number {s : String} (digits : IsNumber s) : Spells .integer s
  | symbol {kind : TokenKind} (mem : kind ∈ TokenKind.symbols) : Spells kind kind.name
  | other {c : Char} (ascii : c.toNat < 128) (noBlank : c.toUInt8 ∉ blankBytes)
      (noWord : ¬ (c.isAlphanum ∨ c = '_'))
      (noSymbol : ∀ kind ∈ TokenKind.symbols, kind.name ≠ String.singleton c) :
      Spells .illegal (String.singleton c)

/-- **The scanner skips the blanks and nothing else.** -/
theorem isBlank_iff_mem_blankBytes {b : UInt8} : isBlank b = true ↔ b ∈ blankBytes := by
  simp only [blankBytes, List.mem_cons, List.not_mem_nil, or_false, isBlank_iff, ← UInt8.toNat_inj]
  rfl

/-- What is no blank is not skipped. -/
theorem isBlank_eq_false_iff {b : UInt8} : isBlank b = false ↔ b ∉ blankBytes := by
  rw [← isBlank_iff_mem_blankBytes, Bool.not_eq_true]

/-- **The scanner knows the reserved words and no others.** -/
theorem TokenKind.reserved_eq_keywords : reserved = keywords := rfl

/-- The token is illegal or its text spells its kind. -/
def Token.Spelled (t : Token) : Prop :=
  t.kind = .illegal ∨ Spells t.kind t.text

namespace Lexeme

/-- The bytes are a lexeme that stands for a token of the given kind and text: the bytes of a
spelling, or one byte beyond ASCII. -/
def Is (kind : TokenKind) (s : String) (lexeme : List UInt8) : Prop :=
  (Spells kind s ∧ bytes s = lexeme) ∨
    ∃ b : UInt8, 128 ≤ b ∧ lexeme = [b] ∧ kind = .illegal ∧ s = "\ufffd"

/-- What follows a token does not go on with it: no letter, digit or underscore follows a word, no
digit a number, and no `=` a single `=` or `!`. -/
structure Stops (s : String) (next : List UInt8) : Prop where
  word : IsWord s → ∀ b ∈ next.head?, isWordByte b = false
  number : IsNumber s → ∀ b ∈ next.head?, isDigit b = false
  equals : s = "=" ∨ s = "!" → next.head? ≠ some '='.toUInt8

end Lexeme

/-- Every lexeme stops where the text does. -/
theorem Lexeme.stops_nil (s : String) : Stops s [] :=
  ⟨fun _ b hb => absurd hb (Option.not_mem_none b), fun _ b hb => absurd hb (Option.not_mem_none b),
    fun _ => nofun⟩

/-! ### Characters and bytes -/

namespace Lexeme

/-- The character of a byte of ASCII has the number of the byte. -/
theorem toNat_char {b : UInt8} (h : b < 128) : (char b).toNat = b.toNat := by
  rw [char, if_pos h]
  exact UInt8.toNat_toUInt32 b

/-- A byte of ASCII is read back off its character. -/
theorem toUInt8_char {b : UInt8} (h : b < 128) : (char b).toUInt8 = b := by
  have hascii : (char b).toNat < 128 := by
    rw [toNat_char h]
    exact UInt8.lt_iff_toNat_lt.mp h
  rw [← UInt8.toNat_inj, toNat_toUInt8_of_ascii hascii, toNat_char h]

/-- **ASCII bytes read as the text that they are.** -/
theorem bytes_text {l : List UInt8} (h : ∀ b ∈ l, b < 128) : bytes (text l) = l := by
  have hascii : IsAscii (text l) := by
    intro c hc
    rw [text, String.toList_ofList] at hc
    obtain ⟨b, hb, rfl⟩ := List.mem_map.mp hc
    rw [toNat_char (h b hb)]
    exact UInt8.lt_iff_toNat_lt.mp (h b hb)
  have hmap : l.map (Char.toUInt8 ∘ char) = l.map id :=
    List.map_congr_left fun b hb => toUInt8_char (h b hb)
  rw [bytes_of_ascii hascii, text, String.toList_ofList, List.map_map, hmap, List.map_id]

/-- A byte that is a digit is one of ASCII, and its character is a digit. -/
theorem isDigit_char {b : UInt8} (h : isDigit b = true) : b < 128 ∧ (char b).isDigit = true := by
  rw [isDigit_iff] at h
  have hascii : b < 128 := by
    rw [UInt8.lt_iff_toNat_lt]
    show b.toNat < 128
    omega
  refine ⟨hascii, ?_⟩
  have hval : (char b).val.toNat = b.toNat := toNat_char hascii
  simp only [Char.isDigit, UInt32.le_iff_toNat_le, ge_iff_le, Bool.and_eq_true, decide_eq_true_eq,
    hval]
  exact h

/-- A byte that is a letter is one of ASCII, and its character is a letter or the underscore. -/
theorem isLetter_char {b : UInt8} (h : isLetter b = true) :
    b < 128 ∧ ((char b).isAlpha = true ∨ char b = '_') := by
  rw [isLetter_iff] at h
  have hascii : b < 128 := by
    rw [UInt8.lt_iff_toNat_lt]
    show b.toNat < 128
    omega
  refine ⟨hascii, ?_⟩
  have hval : (char b).val.toNat = b.toNat := toNat_char hascii
  rcases h with hlower | hupper | hunderscore
  · have hrange : 97 ≤ (char b).val.toNat ∧ (char b).val.toNat ≤ 122 := by rwa [hval]
    refine .inl (Bool.or_eq_true_iff.mpr (.inr ?_))
    exact Bool.and_eq_true_iff.mpr ⟨decide_eq_true hrange.1, decide_eq_true hrange.2⟩
  · have hrange : 65 ≤ (char b).val.toNat ∧ (char b).val.toNat ≤ 90 := by rwa [hval]
    exact .inl (Bool.or_eq_true_iff.mpr (.inl (decide_eq_true hrange)))
  · refine .inr (Char.ext (UInt32.toNat_inj.mp ?_))
    rw [hval, hunderscore]
    rfl

/-- A byte of a word is one of ASCII, and its character is one of a word. -/
theorem isWordByte_char {b : UInt8} (h : isWordByte b = true) :
    b < 128 ∧ ((char b).isAlphanum = true ∨ char b = '_') := by
  rcases isWordByte_iff.mp h with hletter | hdigit
  · obtain ⟨hascii, halpha | hunderscore⟩ := isLetter_char hletter
    · exact ⟨hascii, .inl (Bool.or_eq_true_iff.mpr (.inl halpha))⟩
    · exact ⟨hascii, .inr hunderscore⟩
  · obtain ⟨hascii, hchar⟩ := isDigit_char hdigit
    exact ⟨hascii, .inl (Bool.or_eq_true_iff.mpr (.inr hchar))⟩

/-- A letter with bytes of words behind it reads as a word. -/
theorem isWord_text {b : UInt8} {run : List UInt8} (hb : isLetter b = true)
    (hrun : ∀ c ∈ run, isWordByte c = true) : IsWord (text (b :: run)) := by
  refine ⟨char b, run.map char, ?_, (isLetter_char hb).2, ?_⟩
  · rw [text, String.toList_ofList, List.map_cons]
  · intro d hd
    obtain ⟨c, hc, rfl⟩ := List.mem_map.mp hd
    exact (isWordByte_char (hrun c hc)).2

/-- Digits read as a number. -/
theorem isNumber_text {b : UInt8} {run : List UInt8} (hb : isDigit b = true)
    (hrun : ∀ c ∈ run, isDigit c = true) : IsNumber (text (b :: run)) := by
  constructor
  · intro hempty
    have hlist := congrArg String.toList hempty
    rw [text, String.toList_ofList, List.map_cons] at hlist
    cases hlist
  · intro d hd
    rw [text, String.toList_ofList] at hd
    obtain ⟨c, hc, rfl⟩ := List.mem_map.mp hd
    rcases List.mem_cons.mp hc with rfl | hc
    · exact (isDigit_char hb).2
    · exact (isDigit_char (hrun c hc)).2

end Lexeme

/-! ### Single lexemes -/

/-- A byte is read back off the character with its number. -/
theorem toUInt8_ofUInt8 (b : UInt8) : (Char.ofUInt8 b).toUInt8 = b := by
  rw [← UInt8.toNat_inj]
  show (Char.ofUInt8 b).toNat % 256 = b.toNat
  have hnat : (Char.ofUInt8 b).toNat = b.toNat := UInt8.toNat_toUInt32 b
  have hlt := b.toNat_lt
  omega

/-- A symbol is one byte, or two if it ends with an `=`. -/
theorem TokenKind.symbol_cases {kind : TokenKind} (h : kind ∈ symbols) :
    (∃ b, bytes kind.name = [b] ∧ isWordByte b = false ∧
      (takesEquals b = true → kind.name = "=" ∨ kind.name = "!")) ∨
    ∃ b, bytes kind.name = [b, '='.toUInt8] ∧ isWordByte b = false ∧ takesEquals b = true := by
  cases kind
  case equal | notEqual => exact .inr ⟨_, rfl, by decide, by decide⟩
  case illegal | endOfInput | identifier | integer | fnWord | letWord | trueWord | falseWord |
    ifWord | elseWord | returnWord => exact absurd h (by decide)
  all_goals exact .inl ⟨_, rfl, by decide, by decide⟩

/-- Symbols are written in ASCII. -/
theorem TokenKind.isAscii_symbol {kind : TokenKind} (h : kind ∈ symbols) : IsAscii kind.name := by
  have hall : ∀ kind ∈ symbols, kind.name.toList.all (·.toNat < 128) = true := by decide
  intro c hc
  exact of_decide_eq_true (List.all_eq_true.mp (hall kind h) c hc)

/-- A symbol is cut off whole, with its kind. -/
theorem TokenKind.face_symbol :
    ∀ kind ∈ symbols, Lexeme.face (bytes kind.name) = (kind, kind.name) := by
  decide

/-- A punctuation mark is the symbol that is written with that one byte. -/
theorem TokenKind.ofPunctuation?_eq_some {b : UInt8} {kind : TokenKind}
    (h : ofPunctuation? b = some kind) : kind ∈ symbols ∧ bytes kind.name = [b] := by
  unfold ofPunctuation? at h
  split at h
  case h_13 => cases h
  all_goals
    rename_i hchar
    have hb := congrArg Char.toUInt8 hchar
    rw [toUInt8_ofUInt8] at hb
    cases h
    rw [hb]
    exact ⟨by decide, rfl⟩

namespace Lexeme

/-- One byte that is of no word is a symbol or an illegal token. -/
theorem kind_single {b : UInt8} (hb : isWordByte b = false) :
    (kind [b] ∈ TokenKind.symbols ∧ bytes (kind [b]).name = [b]) ∨ kind [b] = .illegal := by
  rw [isWordByte, Bool.or_eq_false_iff] at hb
  by_cases hequals : b = '='.toUInt8
  · rw [hequals]
    exact .inl ⟨by decide, rfl⟩
  by_cases hbang : b = '!'.toUInt8
  · rw [hbang]
    exact .inl ⟨by decide, rfl⟩
  have hkind : kind [b] = (TokenKind.ofPunctuation? b).getD .illegal := by
    rw [kind, hb.1, hb.2, if_neg hequals, if_neg hbang]
    rfl
  rw [hkind]
  rcases hsymbol : TokenKind.ofPunctuation? b with _ | symbol
  · exact .inr rfl
  · exact .inl (TokenKind.ofPunctuation?_eq_some hsymbol)

/-- A byte that is of no word stands alone, unless it takes an `=` and has one behind it. -/
theorem tail_single {b : UInt8} {rest : List UInt8} (hb : isWordByte b = false)
    (hrest : takesEquals b = true → rest.head? ≠ some '='.toUInt8) : tail b rest = [] := by
  rw [isWordByte, Bool.or_eq_false_iff] at hb
  rw [tail, hb.1, hb.2, if_neg Bool.false_ne_true, if_neg Bool.false_ne_true, if_neg]
  rw [Bool.and_eq_true, beq_iff_eq]
  exact fun h => hrest h.1 h.2

/-- A byte that takes an `=` has it in its lexeme. -/
theorem tail_equals {b : UInt8} (rest : List UInt8) (hb : isWordByte b = false)
    (htakes : takesEquals b = true) : tail b ('='.toUInt8 :: rest) = ['='.toUInt8] := by
  rw [isWordByte, Bool.or_eq_false_iff] at hb
  rw [tail, hb.1, hb.2, if_neg Bool.false_ne_true, if_neg Bool.false_ne_true, if_pos]
  · rfl
  · rw [htakes]
    rfl

/-! ### Lexemes are cut as long as they can be -/

/-- A letter goes on with the bytes of words behind it. -/
theorem tail_word {b : UInt8} (hb : isLetter b = true) (rest : List UInt8) :
    tail b rest = rest.takeWhile isWordByte := by
  rw [tail, if_pos hb]

/-- A digit goes on with the digits behind it. -/
theorem tail_digits {b : UInt8} (hb : isDigit b = true) (rest : List UInt8) :
    tail b rest = rest.takeWhile isDigit := by
  rw [tail, isLetter_eq_false_of_isDigit hb, if_neg Bool.false_ne_true, if_pos hb]

/-- A run of bytes of one class is cut where the class ends. -/
theorem head_after_of_takeWhile {p : UInt8 → Bool} {b : UInt8} {rest : List UInt8}
    (h : tail b rest = rest.takeWhile p) : ∀ c ∈ (after b rest).head?, p c = false := by
  have hdrop : after b rest = rest.dropWhile p := by
    have hsplit := tail_append_after b rest
    rw [h] at hsplit
    exact List.append_cancel_left (hsplit.trans List.takeWhile_append_dropWhile.symm)
  intro c hc
  have hstop := List.head?_dropWhile_not p rest
  rw [← hdrop, Option.mem_def.mp hc] at hstop
  exact hstop

end Lexeme

/-- A reserved word has its own kind. -/
theorem TokenKind.ofWord_keyword : ∀ entry ∈ keywords, ofWord entry.1 = entry.2 := by
  decide

/-- The reserved words are words. -/
theorem isWord_keyword {entry : String × TokenKind} (h : entry ∈ keywords) : IsWord entry.1 := by
  simp only [keywords, List.mem_cons, List.not_mem_nil, or_false] at h
  rcases h with rfl | rfl | rfl | rfl | rfl | rfl | rfl
  all_goals exact ⟨_, _, rfl, by decide, fun d hd => .inl (List.all_eq_true.mp rfl d hd)⟩

/-- A word is a spelling of the kind that it is looked up under. -/
theorem IsWord.spells {s : String} (h : IsWord s) : Spells (.ofWord s) s := by
  rw [TokenKind.ofWord, TokenKind.reserved_eq_keywords]
  rcases hlookup : keywords.lookup s with _ | kind
  · refine .name h fun hmem => ?_
    obtain ⟨entry, hentry, rfl⟩ := List.mem_map.mp hmem
    simpa using List.lookup_eq_none_iff.mp hlookup entry hentry
  · apply Spells.reserved
    obtain ⟨before, after, hsplit, -⟩ := List.lookup_eq_some_iff.mp hlookup
    rw [hsplit]
    exact List.mem_append_right _ List.mem_cons_self

/-- **Spellings are ASCII texts.** -/
theorem Spells.isAscii {kind : TokenKind} {s : String} (h : Spells kind s) : IsAscii s := by
  cases h with
  | reserved entry => exact (isWord_keyword entry).exists_bytes.1
  | name word free => exact word.exists_bytes.1
  | number digits => exact digits.exists_bytes.1
  | symbol mem => exact TokenKind.isAscii_symbol mem
  | other ascii noBlank noWord noSymbol => simpa [IsAscii]

/-- A character that is none of a blank, of a word and of a symbol is an illegal lexeme. -/
theorem Lexeme.face_other {c : Char} (ascii : c.toNat < 128)
    (noWord : ¬ (c.isAlphanum ∨ c = '_'))
    (noSymbol : ∀ kind ∈ TokenKind.symbols, kind.name ≠ String.singleton c) :
    isWordByte c.toUInt8 = false ∧ bytes (String.singleton c) = [c.toUInt8] ∧
      face [c.toUInt8] = (.illegal, String.singleton c) := by
  have hs : IsAscii (String.singleton c) := by simpa [IsAscii]
  have hbytes : bytes (String.singleton c) = [c.toUInt8] := by
    rw [bytes_of_ascii hs, String.toList_singleton, List.map_singleton]
  have hword : isWordByte c.toUInt8 = false := by
    rw [Bool.eq_false_iff]
    intro hword
    have hchar := (isWordByte_char hword).2
    rw [char_toUInt8 ascii] at hchar
    exact noWord hchar
  refine ⟨hword, hbytes, ?_⟩
  rcases kind_single hword with ⟨hsymbol, hname⟩ | hillegal
  · exact absurd (bytes_inj.mp (hname.trans hbytes.symm)) (noSymbol _ hsymbol)
  · rw [face, hillegal, ← hbytes, text_bytes hs]

/-- **The kind of a token is a function of its text.** -/
theorem Spells.face {kind : TokenKind} {s : String} (h : Spells kind s) :
    Lexeme.face (bytes s) = (kind, s) := by
  cases h with
  | reserved entry => rw [(isWord_keyword entry).face, TokenKind.ofWord_keyword _ entry]
  | name word free => rw [word.face, TokenKind.ofWord_of_not_reserved free]
  | number digits => exact digits.face
  | symbol mem => exact TokenKind.face_symbol _ mem
  | other ascii noBlank noWord noSymbol =>
    obtain ⟨-, hbytes, hface⟩ := Lexeme.face_other ascii noWord noSymbol
    rw [hbytes, hface]

namespace Lexeme

/-- A byte that is not the start of a word or of a number is a lexeme, whatever it is. -/
theorem is_single {b : UInt8} (hblank : isBlank b = false) (hb : isWordByte b = false) :
    Is (kind [b]) (text [b]) [b] := by
  by_cases hascii : b < 128
  · have hbytes : bytes (text [b]) = [b] := bytes_text (by simpa using hascii)
    refine .inl ⟨?_, hbytes⟩
    rcases kind_single hb with ⟨hsymbol, hname⟩ | hillegal
    · have hface := TokenKind.face_symbol _ hsymbol
      rw [hname] at hface
      have htext : text [b] = (kind [b]).name := (Prod.mk.inj hface).2
      rw [htext]
      exact .symbol hsymbol
    · have hchar := toUInt8_char hascii
      rw [hillegal]
      refine .other (c := char b) ?_ (by rwa [hchar, ← isBlank_eq_false_iff]) ?_ ?_
      · rw [toNat_char hascii]
        exact UInt8.lt_iff_toNat_lt.mp hascii
      · intro hword
        have hbyte := (isWordByte_toUInt8 hword).2
        rw [hchar, hb] at hbyte
        cases hbyte
      · intro kind' hsymbol hname
        have hface := TokenKind.face_symbol _ hsymbol
        have hsingle : String.singleton (char b) = text [b] := rfl
        rw [hname, hsingle, hbytes] at hface
        have hkind : kind [b] = kind' := (Prod.mk.inj hface).1
        rw [← hkind, hillegal] at hsymbol
        exact absurd hsymbol (by decide)
  · refine .inr ⟨b, UInt8.not_lt.mp hascii, rfl, ?_, ?_⟩
    · rcases kind_single hb with ⟨hsymbol, hname⟩ | hillegal
      · have hlt := (TokenKind.isAscii_symbol hsymbol).lt_of_mem (b := b)
          (by rw [hname]; exact List.mem_singleton_self b)
        exact absurd hlt hascii
      · exact hillegal
    · rw [text, List.map_singleton, char, if_neg hascii]

/-- **What a scanner cuts off is a lexeme.** -/
theorem is_tail {b : UInt8} (hb : isBlank b = false) (rest : List UInt8) :
    Is (kind (b :: tail b rest)) (text (b :: tail b rest)) (b :: tail b rest) := by
  rcases hletter : isLetter b with _ | _
  · rcases hdigit : isDigit b with _ | _
    · have hword : isWordByte b = false := Bool.or_eq_false_iff.mpr ⟨hletter, hdigit⟩
      by_cases hequals : takesEquals b = true ∧ rest.head? = some '='.toUInt8
      · obtain ⟨htakes, hhead⟩ := hequals
        obtain ⟨more, rfl⟩ := List.head?_eq_some_iff.mp hhead
        rw [tail_equals more hword htakes]
        rw [takesEquals, Bool.or_eq_true, beq_iff_eq, beq_iff_eq] at htakes
        rcases htakes with rfl | rfl
        · exact .inl ⟨@Spells.symbol .equal (by decide), rfl⟩
        · exact .inl ⟨@Spells.symbol .notEqual (by decide), rfl⟩
      · rw [tail_single hword fun htakes hhead => hequals ⟨htakes, hhead⟩]
        exact is_single hb hword
    · have hrun : ∀ c ∈ rest.takeWhile isDigit, isDigit c = true := fun c hc =>
        List.mem_takeWhile_imp hc
      have hascii : ∀ c ∈ b :: rest.takeWhile isDigit, c < 128 :=
        List.forall_mem_cons.mpr ⟨(isDigit_char hdigit).1, fun c hc => (isDigit_char (hrun c hc)).1⟩
      have hkind : kind (b :: rest.takeWhile isDigit) = .integer := by
        rw [kind, hletter, hdigit]
        rfl
      rw [tail_digits hdigit, hkind]
      exact .inl ⟨.number (isNumber_text hdigit hrun), bytes_text hascii⟩
  · have hrun : ∀ c ∈ rest.takeWhile isWordByte, isWordByte c = true := fun c hc =>
      List.mem_takeWhile_imp hc
    have hascii : ∀ c ∈ b :: rest.takeWhile isWordByte, c < 128 :=
      List.forall_mem_cons.mpr
        ⟨(isLetter_char hletter).1, fun c hc => (isWordByte_char (hrun c hc)).1⟩
    have hkind : kind (b :: rest.takeWhile isWordByte) =
        .ofWord (text (b :: rest.takeWhile isWordByte)) := by
      rw [kind, if_pos hletter]
    rw [tail_word hletter, hkind]
    exact .inl ⟨(isWord_text hletter hrun).spells, bytes_text hascii⟩

/-- A lexeme that reads as an ASCII text consists of its bytes. -/
theorem Is.bytes_eq {kind : TokenKind} {s : String} {lexeme : List UInt8} (h : Is kind s lexeme)
    (hs : IsAscii s) : bytes s = lexeme := by
  rcases h with ⟨-, hbytes⟩ | ⟨b, hb, rfl, -, rfl⟩
  · exact hbytes
  · exact absurd (hs '\ufffd' (by decide)) (by decide)

/-- **Nothing that follows a lexeme goes on with it**: it is as long as it can be. -/
theorem stops_tail {b : UInt8} (hb : isBlank b = false) (rest : List UInt8) :
    Stops (text (b :: tail b rest)) (after b rest) where
  word := by
    intro hword
    obtain ⟨hascii, c, run, hbytes, hletter, -⟩ := hword.exists_bytes
    rw [(is_tail hb rest).bytes_eq hascii] at hbytes
    rw [← (List.cons.inj hbytes).1] at hletter
    exact head_after_of_takeWhile (tail_word hletter rest)
  number := by
    intro hnumber
    obtain ⟨hascii, c, run, hbytes, hdigit, -⟩ := hnumber.exists_bytes
    rw [(is_tail hb rest).bytes_eq hascii] at hbytes
    rw [← (List.cons.inj hbytes).1] at hdigit
    exact head_after_of_takeWhile (tail_digits hdigit rest)
  equals := by
    intro hs hhead
    have hascii : IsAscii (text (b :: tail b rest)) := by
      rcases hs with hs | hs
      · rw [hs]
        simp [IsAscii]
      · rw [hs]
        simp [IsAscii]
    have hbytes := (is_tail hb rest).bytes_eq hascii
    have hsingle : takesEquals b = true ∧ isWordByte b = false ∧ tail b rest = [] := by
      rcases hs with hs | hs
      · rw [hs] at hbytes
        obtain ⟨rfl, htail⟩ := List.cons.inj hbytes.symm
        exact ⟨rfl, by decide, htail⟩
      · rw [hs] at hbytes
        obtain ⟨rfl, htail⟩ := List.cons.inj hbytes.symm
        exact ⟨rfl, by decide, htail⟩
    obtain ⟨htakes, hword, htail⟩ := hsingle
    rw [after, htail, List.length_nil, List.drop_zero] at hhead
    obtain ⟨more, rfl⟩ := List.head?_eq_some_iff.mp hhead
    rw [tail_equals more hword htakes] at htail
    cases htail

/-! ### There is no other way to cut a lexeme off -/

variable {kind' : TokenKind} {s : String} {b : UInt8} {rest more : List UInt8}

/-- A word that stops is cut off whole. -/
theorem eq_of_word (h : IsWord s) (hstop : Stops s more) (hsplit : bytes s ++ more = b :: rest) :
    bytes s = b :: tail b rest := by
  obtain ⟨-, c, run, hbytes, hletter, hrun⟩ := h.exists_bytes
  rw [hbytes, List.cons_append] at hsplit
  obtain ⟨rfl, rfl⟩ := List.cons.inj hsplit
  rw [hbytes, tail_word hletter, takeWhile_append_of_stop hrun (hstop.word h)]

/-- A number that stops is cut off whole. -/
theorem eq_of_number (h : IsNumber s) (hstop : Stops s more)
    (hsplit : bytes s ++ more = b :: rest) : bytes s = b :: tail b rest := by
  obtain ⟨-, c, run, hbytes, hdigit, hrun⟩ := h.exists_bytes
  rw [hbytes, List.cons_append] at hsplit
  obtain ⟨rfl, rfl⟩ := List.cons.inj hsplit
  rw [hbytes, tail_digits hdigit, takeWhile_append_of_stop hrun (hstop.number h)]

/-- A symbol that stops is cut off whole. -/
theorem eq_of_symbol (h : kind' ∈ TokenKind.symbols) (hstop : Stops kind'.name more)
    (hsplit : bytes kind'.name ++ more = b :: rest) : bytes kind'.name = b :: tail b rest := by
  rcases TokenKind.symbol_cases h with ⟨c, hbytes, hword, htakes⟩ | ⟨c, hbytes, hword, htakes⟩
  · rw [hbytes, List.cons_append] at hsplit
    obtain ⟨rfl, rfl⟩ := List.cons.inj hsplit
    rw [hbytes, List.nil_append, tail_single hword fun h => hstop.equals (htakes h)]
  · rw [hbytes, List.cons_append] at hsplit
    obtain ⟨rfl, rfl⟩ := List.cons.inj hsplit
    rw [hbytes, List.cons_append, tail_equals _ hword htakes]

/-- A byte that starts no word, no number and no symbol is cut off alone. -/
theorem eq_of_illegal (hword : isWordByte b = false)
    (hsymbol : ∀ kind ∈ TokenKind.symbols, bytes kind.name ≠ [b]) :
    tail b rest = [] ∧ kind [b] = .illegal := by
  constructor
  · apply tail_single hword
    intro htakes
    rw [takesEquals, Bool.or_eq_true, beq_iff_eq, beq_iff_eq] at htakes
    rcases htakes with rfl | rfl
    · exact absurd rfl (hsymbol .assign (by decide))
    · exact absurd rfl (hsymbol .bang (by decide))
  · rcases kind_single hword with ⟨hmem, hname⟩ | hillegal
    · exact absurd hname (hsymbol _ hmem)
    · exact hillegal

/-- A spelling that nothing goes on with is cut off whole. -/
theorem eq_of_spells (h : Spells kind' s) (hstop : Stops s more)
    (hsplit : bytes s ++ more = b :: rest) : bytes s = b :: tail b rest := by
  cases h with
  | reserved entry => exact eq_of_word (isWord_keyword entry) hstop hsplit
  | name word free => exact eq_of_word word hstop hsplit
  | number digits => exact eq_of_number digits hstop hsplit
  | symbol mem => exact eq_of_symbol mem hstop hsplit
  | other ascii noBlank noWord noSymbol =>
    obtain ⟨hword, hbytes, -⟩ := face_other ascii noWord noSymbol
    rw [hbytes, List.singleton_append] at hsplit
    obtain ⟨rfl, rfl⟩ := List.cons.inj hsplit
    obtain ⟨htail, -⟩ := @eq_of_illegal _ more hword fun kind hmem hname =>
      noSymbol kind hmem (bytes_inj.mp (hname.trans hbytes.symm))
    rw [htail, hbytes]

/-- **There is one way to cut a lexeme off**: the one that a scanner takes. -/
theorem eq_of_stops {lexeme : List UInt8} (h : Is kind' s lexeme) (hstop : Stops s more)
    (hsplit : lexeme ++ more = b :: rest) :
    lexeme = b :: tail b rest ∧ face (b :: tail b rest) = (kind', s) := by
  rcases h with ⟨hspells, rfl⟩ | ⟨c, hc, rfl, rfl, rfl⟩
  · have hbytes := eq_of_spells hspells hstop hsplit
    refine ⟨hbytes, ?_⟩
    rw [← hbytes, hspells.face]
  · rw [List.singleton_append] at hsplit
    obtain ⟨rfl, rfl⟩ := List.cons.inj hsplit
    have hword : isWordByte c = false := by
      rw [Bool.eq_false_iff]
      intro hbyte
      exact absurd (isWordByte_char hbyte).1 (UInt8.not_lt.mpr hc)
    obtain ⟨htail, hkind⟩ := @eq_of_illegal c more hword fun kind hmem hname => by
      have hlt := (TokenKind.isAscii_symbol hmem).lt_of_mem (b := c)
        (by rw [hname]; exact List.mem_singleton_self c)
      exact absurd hlt (UInt8.not_lt.mpr hc)
    rw [htail, face, hkind, text, List.map_singleton, char, if_neg (UInt8.not_lt.mpr hc)]
    exact ⟨rfl, rfl⟩

end Lexeme

/-! ### Scanning spellings -/

/-- A spelling does not start with a blank. -/
theorem Spells.exists_bytes {kind : TokenKind} {s : String} (h : Spells kind s) :
    ∃ b run, bytes s = b :: run ∧ isBlank b = false := by
  have hword : ∀ {s : String}, IsWord s → ∃ b run, bytes s = b :: run ∧ isBlank b = false := by
    intro s hs
    obtain ⟨-, b, run, hbytes, hletter, -⟩ := hs.exists_bytes
    exact ⟨b, run, hbytes, isBlank_eq_false_of_isWordByte (isWordByte_iff.mpr (.inl hletter))⟩
  cases h with
  | reserved entry => exact hword (isWord_keyword entry)
  | name word free => exact hword word
  | number digits =>
    obtain ⟨-, b, run, hbytes, hdigit, -⟩ := digits.exists_bytes
    exact ⟨b, run, hbytes, isBlank_eq_false_of_isWordByte (isWordByte_iff.mpr (.inr hdigit))⟩
  | symbol mem =>
    have hall : ∀ kind ∈ TokenKind.symbols, ∃ b ∈ (bytes kind.name).head?, isBlank b = false := by
      decide
    obtain ⟨b, hb, hblank⟩ := hall _ mem
    obtain ⟨run, hbytes⟩ := List.head?_eq_some_iff.mp hb
    exact ⟨b, run, hbytes, hblank⟩
  | other ascii noBlank noWord noSymbol =>
    obtain ⟨-, hbytes, -⟩ := Lexeme.face_other ascii noWord noSymbol
    exact ⟨_, [], hbytes, isBlank_eq_false_iff.mpr noBlank⟩

/-- **A spelling that nothing goes on with is one lexeme.** -/
theorem Spells.lexemes {kind : TokenKind} {s : String} {rest : List UInt8} (h : Spells kind s)
    (hstop : Lexeme.Stops s rest) :
    (lexemes (bytes s ++ rest)).map Lexeme.face = (kind, s) :: (lexemes rest).map Lexeme.face := by
  obtain ⟨b, run, hbytes, hb⟩ := h.exists_bytes
  have hsplit : bytes s ++ rest = b :: (run ++ rest) := by rw [hbytes, List.cons_append]
  have hlexeme := Lexeme.eq_of_spells h hstop hsplit
  have htail : Lexeme.tail b (run ++ rest) = run := by
    rw [hbytes] at hlexeme
    exact (List.cons.inj hlexeme).2.symm
  have hafter : Lexeme.after b (run ++ rest) = rest := by rw [Lexeme.after, htail, List.drop_left]
  rw [hsplit, lexemes_cons hb, ← hlexeme, hafter, List.map_cons, h.face]

/-- **The tokens of a text are spelled**, but for the illegal ones. -/
theorem Scanner.spelled_of_mem {s : Scanner} :
    ∀ t ∈ s.tokens, t.Spelled := by
  obtain ⟨bs, o, file⟩ := s
  generalize hn : bs.length = n
  induction n using Nat.strongRecOn generalizing bs o with
  | ind n ih =>
    subst hn
    rcases blanks_cases bs with hblank | ⟨run, b, rest, rfl, hrun, hb⟩
    · rw [tokens_of_blanks hblank]
      exact fun t ht => absurd ht List.not_mem_nil
    · rw [tokens_of_lexeme hrun hb]
      refine List.forall_mem_cons.mpr ⟨?_, ih _ ?_ _ _ rfl⟩
      · rcases Lexeme.is_tail hb rest with ⟨hspells, -⟩ | ⟨-, -, -, hillegal, -⟩
        · exact .inr hspells
        · exact .inl hillegal
      · have hle := Lexeme.length_after_le b rest
        simp only [List.length_append, List.length_cons]
        omega

/-! ### What spells a kind -/

namespace Spells

variable {kind : TokenKind} {s s' : String}

/-- What spells an identifier is a word that is no keyword. -/
theorem of_identifier (h : Spells .identifier s) :
    IsWord s ∧ s ∉ keywords.map Prod.fst := by
  cases h with
  | reserved entry =>
    have hnone : ∀ entry ∈ keywords, entry.2 ≠ .identifier := by decide
    exact absurd rfl (hnone _ entry)
  | name word free => exact ⟨word, free⟩
  | symbol mem => exact absurd mem (by decide)

/-- What spells an integer is a number. -/
theorem of_integer (h : Spells .integer s) : IsNumber s := by
  cases h with
  | reserved entry =>
    have hnone : ∀ entry ∈ keywords, entry.2 ≠ .integer := by decide
    exact absurd rfl (hnone _ entry)
  | number digits => exact digits
  | symbol mem => exact absurd mem (by decide)

/-- **Every other kind has one spelling.** -/
theorem text_eq (h : Spells kind s) (h' : Spells kind s')
    (hfixed : kind ∉ [.identifier, .integer, .illegal]) : s = s' := by
  have hreserved : ∀ entry ∈ keywords, ∀ entry' ∈ keywords,
      entry.2 = entry'.2 → entry.1 = entry'.1 := by decide
  have hapart : ∀ entry ∈ keywords, entry.2 ∉ TokenKind.symbols := by decide
  cases h with
  | reserved entry =>
    cases h' with
    | reserved entry' => exact hreserved _ entry _ entry' rfl
    | symbol mem => exact absurd mem (hapart _ entry)
    | name | number | other => exact absurd hfixed (by decide)
  | symbol mem =>
    cases h' with
    | reserved entry' => exact absurd mem (hapart _ entry')
    | symbol => rfl
    | name | number | other => exact absurd hfixed (by decide)
  | name | number | other => exact absurd hfixed (by decide)

end Spells

end Prattle
