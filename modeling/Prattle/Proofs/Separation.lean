import Mathlib.Data.List.Chain
import Prattle.Proofs.Cutting
import Prattle.Proofs.Readings

/-!
# Which lexemes have to be separated

A text is spelled from lexemes by putting them one behind the other with blanks in between (`spaced`).
Where no blank stands between two of them they may fuse (`Fuses`): a word goes on with a word or a
number, a number with a number, and a single `=` or `!` with what starts with an `=`.

* **A lexeme stops in front of another one iff the two do not fuse** (`Spells.stops_append_iff`).
* **A text falls into a lexeme and more iff the lexeme stops there** (`Spells.lexemes_eq_cons_iff`), so a
  text in which two lexemes have fused does not fall into them.
* **Scanning undoes spelling iff no two lexemes fuse** (`tokenize_spaced_iff`, by induction on the
  lexemes).
-/

namespace Prattle

/-! ### Fusing lexemes -/

/-- With nothing between the two, the first lexeme goes on with the second. -/
inductive Fuses : String → String → Prop
  | word {s s' : String} (first : IsWord s) (second : IsWord s' ∨ IsNumber s') : Fuses s s'
  | number {s s' : String} (first : IsNumber s) (second : IsNumber s') : Fuses s s'
  | equals {s s' : String} (first : s = "=" ∨ s = "!") (second : s' = "=" ∨ s' = "==") : Fuses s s'

section heads

variable {kind : TokenKind} {s s' : String} {b : UInt8} {run rest : List UInt8}

/-- A word starts with a letter. -/
theorem IsWord.isLetter_head (h : IsWord s) (hbytes : bytes s = b :: run) : isLetter b = true := by
  obtain ⟨-, c, cs, hcons, hletter, -⟩ := h.exists_bytes
  rw [hbytes] at hcons
  rwa [(List.cons.inj hcons).1]

/-- A number starts with a digit. -/
theorem IsNumber.isDigit_head (h : IsNumber s) (hbytes : bytes s = b :: run) : isDigit b = true := by
  obtain ⟨-, c, cs, hcons, hdigit, -⟩ := h.exists_bytes
  rw [hbytes] at hcons
  rwa [(List.cons.inj hcons).1]

/-- A symbol starts with an `=` iff it is `=` or `==`. -/
theorem TokenKind.head_symbol_eq_equals_iff :
    ∀ kind ∈ symbols, (bytes kind.name).head? = some '='.toUInt8 ↔
      kind.name = "=" ∨ kind.name = "==" := by
  decide

/-- What starts with a byte of a word is a word or a number. -/
theorem Spells.of_isWordByte_head (h : Spells kind s) (hbytes : bytes s = b :: run)
    (hb : isWordByte b = true) : IsWord s ∨ IsNumber s := by
  cases h with
  | reserved entry => exact .inl (isWord_keyword entry)
  | name word free => exact .inl word
  | number digits => exact .inr digits
  | symbol mem =>
    rcases TokenKind.symbol_cases mem with ⟨c, hc, hfalse, -⟩ | ⟨c, hc, hfalse, -⟩
    all_goals
      rw [← (List.cons.inj (hbytes.symm.trans hc)).1, hb] at hfalse
      cases hfalse
  | other ascii noBlank noWord noSymbol =>
    obtain ⟨hfalse, hc, -⟩ := Lexeme.face_other ascii noWord noSymbol
    rw [← (List.cons.inj (hbytes.symm.trans hc)).1, hb] at hfalse
    cases hfalse

/-- What starts with an `=` is `=` or `==`. -/
theorem Spells.head_eq_equals_iff (h : Spells kind s) (hbytes : bytes s = b :: run) :
    b = '='.toUInt8 ↔ s = "=" ∨ s = "==" := by
  constructor
  · rintro rfl
    cases h with
    | reserved entry => exact absurd ((isWord_keyword entry).isLetter_head hbytes) (by decide)
    | name word free => exact absurd (word.isLetter_head hbytes) (by decide)
    | number digits => exact absurd (digits.isDigit_head hbytes) (by decide)
    | symbol mem =>
      apply (TokenKind.head_symbol_eq_equals_iff _ mem).mp
      rw [hbytes, List.head?_cons]
    | @other c ascii noBlank noWord noSymbol =>
      -- the byte alone would be the text `=`, which is a symbol
      obtain ⟨-, hc, -⟩ := Lexeme.face_other ascii noWord noSymbol
      have hequals : bytes TokenKind.assign.name = bytes (String.singleton c) := by
        rw [hc, ← (List.cons.inj (hbytes.symm.trans hc)).1]
        rfl
      exact absurd (bytes_inj.mp hequals) (noSymbol .assign (by decide))
  · rintro (rfl | rfl)
    · exact (List.cons.inj hbytes).1.symm
    · exact (List.cons.inj hbytes).1.symm

/-- **A lexeme stops in front of another one iff the two do not fuse.** -/
theorem Spells.stops_append_iff (h : Spells kind s') :
    Lexeme.Stops s (bytes s' ++ rest) ↔ ¬ Fuses s s' := by
  obtain ⟨b, run, hbytes, -⟩ := h.exists_bytes
  have hhead : (bytes s' ++ rest).head? = some b := by rw [hbytes]; rfl
  constructor
  · intro hstop hfuses
    cases hfuses with
    | word first second =>
      have hb : isWordByte b = true := by
        rw [isWordByte_iff]
        exact second.imp (·.isLetter_head hbytes) (·.isDigit_head hbytes)
      simp [hstop.word first b hhead] at hb
    | number first second =>
      have hb := second.isDigit_head hbytes
      simp [hstop.number first b hhead] at hb
    | equals first second =>
      apply hstop.equals first
      rw [hhead, (h.head_eq_equals_iff hbytes).mpr second]
  · intro hfuses
    refine ⟨?_, ?_, ?_⟩
    · intro hs c hc
      rw [hhead] at hc
      obtain rfl := Option.some.inj hc
      rw [Bool.eq_false_iff]
      intro hb
      exact hfuses (.word hs (h.of_isWordByte_head hbytes hb))
    · intro hs c hc
      rw [hhead] at hc
      obtain rfl := Option.some.inj hc
      rw [Bool.eq_false_iff]
      intro hb
      rcases h.of_isWordByte_head hbytes (isWordByte_iff.mpr (.inr hb)) with hword | hnumber
      · have hletter := hword.isLetter_head hbytes
        simp [isLetter_eq_false_of_isDigit hb] at hletter
      · exact hfuses (.number hs hnumber)
    · intro hs hc
      rw [hhead] at hc
      exact hfuses (.equals hs ((h.head_eq_equals_iff hbytes).mp (Option.some.inj hc)))

/-- **A text falls into a lexeme and more iff the lexeme stops there.** -/
theorem Spells.lexemes_eq_cons_iff {faces : List (TokenKind × String)} (h : Spells kind s) :
    (Prattle.lexemes (bytes s ++ rest)).map Lexeme.face = (kind, s) :: faces ↔
      Lexeme.Stops s rest ∧ (Prattle.lexemes rest).map Lexeme.face = faces := by
  constructor
  · intro heq
    obtain ⟨b, run, hbytes, hb⟩ := h.exists_bytes
    rw [hbytes, List.cons_append, lexemes_cons hb, List.map_cons, List.cons.injEq] at heq
    obtain ⟨hface, hfaces⟩ := heq
    obtain ⟨hkind, htext⟩ := Prod.mk.inj hface
    -- what is cut off reads as the lexeme, so it is no longer than the lexeme
    have hlexeme := Lexeme.is_tail hb (run ++ rest)
    rw [htext] at hlexeme
    have htail := hlexeme.bytes_eq h.isAscii
    rw [hbytes, List.cons.injEq] at htail
    have hafter : Lexeme.after b (run ++ rest) = rest := by
      rw [Lexeme.after, ← htail.2, List.drop_left]
    have hstop := Lexeme.stops_tail hb (run ++ rest)
    rw [htext, hafter] at hstop
    rw [hafter] at hfaces
    exact ⟨hstop, hfaces⟩
  · rintro ⟨hstop, rfl⟩
    exact h.lexemes hstop

end heads

/-! ### Lexemes with separators -/

/-- A text of spaces, tabs, line feeds and carriage returns. -/
structure Separator where
  text : String
  blank : ∀ c ∈ text.toList, c = ' ' ∨ c = '\t' ∨ c = '\n' ∨ c = '\r'

/-- A kind with a spelling of it. -/
structure Spelling where
  kind : TokenKind
  text : String
  spells : Spells kind text

/-- The text of the lexemes, each behind its separator, with one more separator at the end. -/
def spaced : List (Separator × Spelling) → Separator → String
  | [], last => last.text
  | (sep, lexeme) :: more, last => sep.text ++ lexeme.text ++ spaced more last

/-- A separator is a run of blanks. -/
theorem Separator.isBlank_of_mem (sep : Separator) : ∀ b ∈ bytes sep.text, isBlank b = true := by
  have hascii : IsAscii sep.text := by
    intro c hc
    rcases sep.blank c hc with rfl | rfl | rfl | rfl <;> decide
  intro b hb
  rw [bytes_of_ascii hascii] at hb
  obtain ⟨c, hc, rfl⟩ := List.mem_map.mp hb
  rcases sep.blank c hc with rfl | rfl | rfl | rfl <;> decide

/-- Blanks in front change no lexeme. -/
theorem lexemes_blanks_append {blanks rest : List UInt8} (h : ∀ b ∈ blanks, isBlank b = true) :
    lexemes (blanks ++ rest) = lexemes rest := by
  induction blanks with
  | nil => rfl
  | cons b blanks ih =>
    rw [List.forall_mem_cons] at h
    rw [List.cons_append, lexemes_blank h.1, ih h.2]

/-- The separator in front of the first lexeme changes no lexeme. -/
theorem lexemes_spaced_cons (sep : Separator) (lexeme : Spelling)
    (more : List (Separator × Spelling)) (last : Separator) :
    lexemes (bytes (spaced ((sep, lexeme) :: more) last)) =
      lexemes (bytes lexeme.text ++ bytes (spaced more last)) := by
  simp [spaced, lexemes_blanks_append sep.isBlank_of_mem]

/-- Every lexeme stops in front of a blank and of the end of the text. -/
theorem Separator.stops {sep : Separator} {rest : List UInt8} (s : String)
    (h : sep.text = "" → rest = []) : Lexeme.Stops s (bytes sep.text ++ rest) := by
  rcases hbytes : bytes sep.text with _ | ⟨b, run⟩
  · rw [h (bytes_inj.mp (hbytes.trans bytes_empty.symm))]
    exact Lexeme.stops_nil s
  · have hb : isBlank b = true := sep.isBlank_of_mem b (by simp [hbytes])
    apply Lexeme.stops_of_byte
    · rw [Bool.eq_false_iff]
      intro hword
      simp [isBlank_eq_false_of_isWordByte hword] at hb
    · rintro rfl
      exact absurd hb (by decide)

/-- **A text of separated lexemes falls into them iff no two of them fuse.** -/
theorem map_face_lexemes_spaced_iff (items : List (Separator × Spelling)) (last : Separator) :
    (lexemes (bytes (spaced items last))).map Lexeme.face =
        items.map (fun item => (item.2.kind, item.2.text)) ↔
      items.IsChain fun a b => b.1.text = "" → ¬ Fuses a.2.text b.2.text := by
  induction items with
  | nil =>
    have hblank : lexemes (bytes last.text ++ []) = lexemes [] :=
      lexemes_blanks_append last.isBlank_of_mem
    rw [List.append_nil] at hblank
    simp [spaced, hblank]
  | cons item items ih =>
    obtain ⟨sep, lexeme⟩ := item
    rw [lexemes_spaced_cons, List.map_cons, lexeme.spells.lexemes_eq_cons_iff, ih]
    cases items with
    | nil =>
      have hstop : Lexeme.Stops lexeme.text (bytes last.text ++ []) := last.stops _ fun _ => rfl
      rw [List.append_nil] at hstop
      simp [spaced, hstop]
    | cons next items =>
      obtain ⟨sep', lexeme'⟩ := next
      rw [List.isChain_cons_cons, and_congr_left_iff]
      intro _
      by_cases hsep : sep'.text = ""
      · simp [spaced, hsep, lexeme'.spells.stops_append_iff]
      · have hstop : Lexeme.Stops lexeme.text (bytes (spaced ((sep', lexeme') :: items) last)) := by
          rw [spaced, bytes_append, bytes_append, List.append_assoc]
          exact sep'.stops _ fun hempty => absurd hempty hsep
        simp [hstop, hsep]

/-- **Scanning undoes spelling iff every two lexemes that would fuse are separated.** -/
theorem tokenize_spaced_iff (items : List (Separator × Spelling)) (last : Separator)
    (file : Option String) :
    (tokenize (spaced items last) file).dropLast.map Token.face =
        items.map (fun item => (item.2.kind, item.2.text)) ↔
      items.IsChain fun a b => b.1.text = "" → ¬ Fuses a.2.text b.2.text := by
  have htokens : (tokenize (spaced items last) file).dropLast =
      (Scanner.ofText (spaced items last) file).tokens := List.dropLast_concat
  rw [htokens, Scanner.map_face_tokens]
  exact map_face_lexemes_spaced_iff items last

/-- A `!` and a `==` that are not separated are scanned as `!=` and `=`, a number and a word as they
are. -/
example : ((tokenize "! ==12a" none).dropLast.map (·.text) = ["!", "==", "12", "a"]) ∧
    (tokenize "!==12a" none).dropLast.map (·.text) = ["!=", "=", "12", "a"] := by decide

end Prattle
