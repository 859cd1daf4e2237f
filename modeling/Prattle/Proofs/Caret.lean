import Prattle.Diagnostic
import Prattle.Proofs.ErrorOrder
import Prattle.Proofs.Lines
import Prattle.Proofs.Quotation

/-!
# The caret stands under the character that is blamed

`IsHeadline` says in which words a report starts, and `Diagnostic.Shows` what its three lines about a line of
the text show, in columns of characters: the bars one under the other, and the caret where the line, with its
number in front and without its indentation, has the character of the offset. Both say so without the
functions that write the report; how a literal is quoted in it is said by `Text.Quotes`.

* **Characters are counted, not bytes** (`Diagnostic.caretColumn_eq`).
* **A report on an offset behind the indentation of its line shows that line** (`Diagnostic.shows_excerpt`).
* **What is wrong is said on one line**, whatever text is quoted in it (`IsHeadline.newline_not_mem`).
* **An error of a text is never blamed on the indentation of a line** (`exists_indents_of_errors`), because
  no token starts with a blank.
* **A report shows the line of its error with a caret** (`diagnostic_shows`), and no line if the error
  stands behind the text.
-/

namespace Prattle

open Text

namespace Diagnostic

/-! ### What the lines show -/

/-- The line `indent ++ rest` starts with the spaces and tabs of `indent` and with no more of them. -/
structure Indents (indent rest : List Char) : Prop where
  blank : ∀ c ∈ indent, c = ' ' ∨ c = '\t'
  stops : ∀ c ∈ rest.head?, c ≠ ' ' ∧ c ≠ '\t'

/-- The three lines about a line with the given number that is `inner ++ right` without its indentation, with
a caret under the character behind `inner`. -/
structure Shows (number : Nat) (inner right : List Char) (bar shown caret : String) : Prop where
  margin : bar = String.ofList (List.replicate ((toString number).length + 1) ' ') ++ "|"
  /-- The line is shown without the white space at its end. -/
  excerpt : ∃ visible blanks, inner ++ right = visible ++ blanks ∧
    (∀ c ∈ blanks, isWhiteSpace c = true) ∧ (∀ c ∈ visible.getLast?, isWhiteSpace c = false) ∧
    shown = toString number ++ " | " ++ String.ofList visible
  mark : ∃ dashes, caret = String.ofList (List.replicate ((toString number).length + 1) ' ') ++ "| " ++
    String.ofList (List.replicate dashes '-') ++ "^"
  /-- The bars stand in one column. -/
  aligned : bar.toList[(toString number).length + 1]? = some '|' ∧
    shown.toList[(toString number).length + 1]? = some '|' ∧
    caret.toList[(toString number).length + 1]? = some '|'
  /-- The caret stands under the character behind `inner`, or behind the last one of the text. -/
  under : ∃ marked, (toString number ++ " | ").toList ++ (inner ++ right) = marked ++ right ∧
    caret.toList[marked.length]? = some '^'
  /-- Each of the three is a single line. -/
  single : '\n' ∉ bar.toList ∧ '\n' ∉ shown.toList ∧ '\n' ∉ caret.toList

/-- A run of one character has that character in every place. -/
@[simp] theorem toList_run (n : Nat) (c : Char) : (run n c).toList = List.replicate n c := by
  simp [run]

/-- A number is written on one line. -/
theorem newline_not_mem_toString (n : Nat) : '\n' ∉ (toString n).toList := by
  rw [Nat.toString_eq_ofList_toDigits, String.toList_ofList]
  intro hmem
  have hdigit := Nat.isDigit_of_mem_toDigits (by decide) (by decide) hmem
  simp at hdigit

/-! ### Columns -/

/-- **As many characters as bytes are counted away.** -/
theorem charsBefore_byteLength (left right : List Char) :
    charsBefore (byteLength left) (left ++ right) = left.length := by
  induction left with
  | nil => cases right <;> simp [byteLength, charsBefore]
  | cons c left ih =>
    have hpos := byteLength_pos (List.cons_ne_nil c left)
    rw [List.cons_append, charsBefore, if_neg (by omega), byteLength, Nat.add_sub_cancel_left, ih,
      List.length_cons]

/-- The blanks that are not shown are spaces and tabs. -/
theorem isIndent_iff {c : Char} : isIndent c = true ↔ c = ' ' ∨ c = '\t' := by
  simp [isIndent]

/-- The indentation of a line is what is not shown of its start. -/
theorem Indents.split {indent rest : List Char} (h : Indents indent rest) :
    (indent ++ rest).takeWhile isIndent = indent ∧ (indent ++ rest).dropWhile isIndent = rest := by
  have hindent : ∀ c ∈ indent, isIndent c = true := fun c hc => isIndent_iff.mpr (h.blank c hc)
  rw [List.takeWhile_append_of_pos hindent, List.dropWhile_append_of_pos hindent]
  rcases rest with _ | ⟨c, rest⟩
  · simp
  · have hc : isIndent c = false := by
      rw [Bool.eq_false_iff, ne_eq, isIndent_iff, not_or]
      exact h.stops c rfl
    simp [hc]

/-- What stands in front of a character that is no blank is an indentation and something behind it. -/
theorem exists_indents {right : List Char} (h : ∀ c ∈ right.head?, c ≠ ' ' ∧ c ≠ '\t')
    (left : List Char) : ∃ indent inner, left = indent ++ inner ∧ Indents indent (inner ++ right) := by
  induction left with
  | nil => exact ⟨[], [], rfl, by simp, h⟩
  | cons c left ih =>
    by_cases hc : c = ' ' ∨ c = '\t'
    · obtain ⟨indent, inner, rfl, hindents⟩ := ih
      exact ⟨c :: indent, inner, rfl, List.forall_mem_cons.mpr ⟨hc, hindents.blank⟩, hindents.stops⟩
    · exact ⟨[], c :: left, rfl, by simp, by simpa [not_or] using hc⟩

/-- **The caret stands behind as many characters as are shown in front of the offset.** -/
theorem caretColumn_eq (number : Nat) {indent inner right : List Char}
    (h : Indents indent (inner ++ right)) :
    caretColumn ⟨number, indent ++ inner ++ right, byteLength (indent ++ inner)⟩ = inner.length := by
  have hindent := h.split.1
  rw [← List.append_assoc] at hindent
  rw [caretColumn, charsBefore_byteLength, hindent, List.length_append, Nat.add_sub_cancel_left]

/-! ### White space at the end -/

/-- Trimming the end of a text takes the white space away that it ends with, and all of it. -/
theorem exists_trimEnd (l : List Char) :
    ∃ blanks, l = trimEnd l ++ blanks ∧ (∀ c ∈ blanks, isWhiteSpace c = true) ∧
      ∀ c ∈ (trimEnd l).getLast?, isWhiteSpace c = false := by
  have hsplit := List.takeWhile_append_dropWhile (p := isWhiteSpace) (l := l.reverse)
  refine ⟨(l.reverse.takeWhile isWhiteSpace).reverse, ?_, ?_, ?_⟩
  · rw [trimEnd, ← List.reverse_append, hsplit, List.reverse_reverse]
  · intro c hc
    exact List.mem_takeWhile_imp (List.mem_reverse.mp hc)
  · intro c hc
    rw [trimEnd, List.getLast?_reverse] at hc
    have hhead := List.head?_dropWhile_not isWhiteSpace l.reverse
    rw [Option.mem_def.mp hc] at hhead
    simpa using hhead

/-- Where a line feed may only come last, none is left when the white space at the end is gone. -/
theorem newline_not_mem_visible {front visible blanks : List Char}
    (h : '\n' ∉ (front ++ (visible ++ blanks)).dropLast)
    (hlast : ∀ c ∈ visible.getLast?, isWhiteSpace c = false) : '\n' ∉ visible := by
  rcases List.eq_nil_or_concat' blanks with rfl | ⟨blanks, b, rfl⟩
  · rcases List.eq_nil_or_concat' visible with rfl | ⟨visible, v, rfl⟩
    · simp
    · rw [List.append_nil, ← List.append_assoc, List.dropLast_concat] at h
      have hv : isWhiteSpace v = false := hlast v (by simp)
      have hne : '\n' ≠ v := by
        rintro rfl
        exact absurd hv (by decide)
      simp_all
  · rw [← List.append_assoc, ← List.append_assoc, List.dropLast_concat] at h
    simp_all

/-! ### Reports -/

/-- **A report on an offset behind the indentation of its line shows that line.** -/
theorem shows_excerpt {number : Nat} {indent inner right : List Char}
    (hindent : Indents indent (inner ++ right)) (hsingle : '\n' ∉ (indent ++ inner ++ right).dropLast) :
    ∃ bar shown caret, Shows number inner right bar shown caret ∧
      excerpt ⟨number, indent ++ inner ++ right, byteLength (indent ++ inner)⟩ =
        bar ++ "\n" ++ shown ++ "\n" ++ caret ++ "\n" := by
  obtain ⟨blanks, hsplit, hblanks, hlast⟩ := exists_trimEnd (inner ++ right)
  have hdigits := newline_not_mem_toString number
  have hvisible : '\n' ∉ trimEnd (inner ++ right) := by
    apply newline_not_mem_visible _ hlast
    · exact indent
    · exact blanks
    · rwa [← hsplit, ← List.append_assoc]
  have hdrop := hindent.split.2
  rw [← List.append_assoc] at hdrop
  refine ⟨run ((toString number).length + 1) ' ' ++ "|",
    toString number ++ " | " ++ String.ofList (trimEnd (inner ++ right)),
    run ((toString number).length + 1) ' ' ++ "| " ++ run inner.length '-' ++ "^",
    ⟨rfl, ⟨_, _, hsplit, hblanks, hlast, rfl⟩, ⟨_, rfl⟩, ?_, ?_, ?_⟩, ?_⟩
  · generalize toString number = digits
    refine ⟨by simp, ?_, by simp⟩
    simp [← String.length_toList]
  · generalize toString number = digits
    refine ⟨(digits ++ " | ").toList ++ inner, by simp, ?_⟩
    have hlength : ((digits ++ " | ").toList ++ inner).length =
        (run (digits.length + 1) ' ' ++ "| " ++ run inner.length '-').toList.length := by
      simp [← String.length_toList]
      omega
    rw [hlength, String.toList_append]
    exact List.getElem?_concat_length
  · generalize toString number = digits at hdigits
    simp [hdigits, hvisible]
  · rw [excerpt, shownLine, caretColumn_eq number hindent, hdrop]
    generalize toString number = digits
    simp [line, String.append_assoc]

end Diagnostic

open Diagnostic

/-! ### What is wrong -/

/-- The first line of a report on an error with the given cause. A literal without a value is quoted. -/
inductive IsHeadline : Cause → String → Prop
  | unexpected (expected found : TokenKind) :
      IsHeadline (.unexpected expected found) ("Error: ExpectedToken (expected next token is " ++
        expected.name ++ ", got " ++ found.name ++ " instead)")
  | noOperand (kind : TokenKind) :
      IsHeadline (.noOperand kind)
        ("Error: NoPrefixParseFn (no prefix parse function for " ++ kind.name ++ " found)")
  | badNumeral {literal quotation : String} (quotes : Quotes literal quotation) :
      IsHeadline (.badNumeral literal)
        ("Error: IntegerParse (could not parse " ++ quotation ++ " as integer)")

/-- **What is wrong is said on one line**, whatever text is quoted in it. -/
theorem IsHeadline.newline_not_mem {cause : Cause} {head : String} (h : IsHeadline cause head) :
    '\n' ∉ head.toList := by
  have hname : ∀ kind : TokenKind, '\n' ∉ kind.name.toList := by
    intro kind
    cases kind <;> decide
  cases h with
  | unexpected expected found => simp [hname]
  | noOperand kind => simp [hname]
  | @badNumeral literal quotation quotes =>
    have hquotation : '\n' ∉ quotation.toList := by
      intro hmem
      exact absurd (quotes.isPlain _ hmem) (by decide)
    simp [hquotation]

/-- The name and the message of a cause make its headline. -/
theorem isHeadline_of_cause (cause : Cause) :
    IsHeadline cause ("Error: " ++ cause.name ++ " (" ++ cause.message ++ ")") := by
  -- the texts around what is quoted are cut where the name and the message end
  cases cause with
  | unexpected expected found =>
    have hstart : "Error: ExpectedToken (expected next token is " =
        "Error: " ++ "ExpectedToken" ++ " (" ++ "expected next token is " := by decide
    have hstop : " instead)" = " instead" ++ ")" := by decide
    have h := IsHeadline.unexpected expected found
    rw [hstart, hstop] at h
    show IsHeadline _ ("Error: " ++ "ExpectedToken" ++ " (" ++
      ("expected next token is " ++ expected.name ++ ", got " ++ found.name ++ " instead") ++ ")")
    simpa only [String.append_assoc, -String.reduceAppend] using h
  | noOperand kind =>
    have hstart : "Error: NoPrefixParseFn (no prefix parse function for " =
        "Error: " ++ "NoPrefixParseFn" ++ " (" ++ "no prefix parse function for " := by decide
    have hstop : " found)" = " found" ++ ")" := by decide
    have h := IsHeadline.noOperand kind
    rw [hstart, hstop] at h
    show IsHeadline _ ("Error: " ++ "NoPrefixParseFn" ++ " (" ++
      ("no prefix parse function for " ++ kind.name ++ " found") ++ ")")
    simpa only [String.append_assoc, -String.reduceAppend] using h
  | badNumeral literal =>
    have hstart : "Error: IntegerParse (could not parse " =
        "Error: " ++ "IntegerParse" ++ " (" ++ "could not parse " := by decide
    have hstop : " as integer)" = " as integer" ++ ")" := by decide
    have h := IsHeadline.badNumeral (quotes_iff.mpr (rfl : quoted literal = quoted literal))
    rw [hstart, hstop] at h
    show IsHeadline _ ("Error: " ++ "IntegerParse" ++ " (" ++
      ("could not parse " ++ quoted literal ++ " as integer") ++ ")")
    simpa only [String.append_assoc, -String.reduceAppend] using h

/-- **A report starts with its headline and the name of the file**, and then shows a line of the text. -/
theorem SyntaxError.exists_headline (e : SyntaxError) :
    ∃ head, IsHeadline e.cause head ∧ ∀ text, e.diagnostic text =
      head ++ "\n-> " ++ e.position.file ++ "\n" ++ (locate? text e.position.offset).elim "" excerpt := by
  refine ⟨_, isHeadline_of_cause e.cause, fun text => ?_⟩
  rw [SyntaxError.diagnostic, line, line]
  simp only [String.append_assoc]
  rfl

section texts

variable {text : String} {file : Option String} {e : SyntaxError} {before : List (List Char)}
  {left right after : List Char}

/-- A space or a tab is one byte, and a blank. -/
theorem isBlank_of_isIndent {c : Char} (h : c = ' ' ∨ c = '\t') :
    ∃ b, String.utf8EncodeChar c = [b] ∧ isBlank b = true := by
  rcases h with rfl | rfl
  · exact ⟨_, utf8EncodeChar_of_ascii (by decide), by decide⟩
  · exact ⟨_, utf8EncodeChar_of_ascii (by decide), by decide⟩

/-- No token starts with a blank. -/
theorem IsTokenization.isBlank_first {label : String} {p : Nat} {ts : List Token} {t : Token} {b : UInt8}
    (h : IsTokenization text label p ts) (hsize : text.utf8ByteSize < 2 ^ 32) (ht : t ∈ ts)
    (hb : (bytes text)[t.first]? = some b) : isBlank b = false := by
  by_cases hkind : t.kind = .endOfInput
  · rw [h.eq_endOf ht hkind, (Token.offsets_endOf _ hsize).1, ← length_bytes] at hb
    simp at hb
  · obtain ⟨b', hb', hno⟩ := h.exists_first hsize ht hkind
    rw [hb] at hb'
    obtain rfl := Option.some.inj hb'
    exact hno

/-- **No error of a text is blamed on the indentation of a line**: a token does not start with a blank. -/
theorem exists_indents_of_errors (hsize : text.utf8ByteSize < 2 ^ 32)
    (he : e ∈ (parse text file).2) (h : IsLineCut text e.offset before left right after) :
    ∃ indent inner, left = indent ++ inner ∧ Indents indent (inner ++ right) := by
  obtain ⟨⟨t, ht, hblames⟩, -⟩ := exists_append_of_errors hsize he
  apply exists_indents
  rcases right with _ | ⟨c, right⟩
  · simp
  rintro _ ⟨⟩
  rw [← not_or]
  intro hc
  obtain ⟨b, hb, hblank⟩ := isBlank_of_isIndent hc
  have hbyte : (bytes text)[t.first]? = some b := by
    rw [← hblames.offset_eq, h.getElem?_bytes, List.cons_append, List.flatMap_cons, hb]
    rfl
  have hno := (isTokenization_tokenize text file hsize).isBlank_first hsize ht hbyte
  simp [hblank] at hno

end texts

/-- **A report shows the line of its error with a caret under the character that is blamed.** A report starts
with a line that says what is wrong and one that names the file. The offset of the error lies on a line, and
where it does not lie in the indentation of that line the report goes on with the three lines that show it.
The report on an error behind the text ends with the name of the file. The errors of the text itself lie in
it, between two characters and behind the indentation. -/
theorem diagnostic_shows (e : SyntaxError) (text : String) :
    ∃ head, IsHeadline e.cause head ∧ '\n' ∉ head.toList ∧
    (∀ a b, text = a ++ b → a.utf8ByteSize = e.offset →
      ∃ before left right after, IsLineCut text e.offset before left right after) ∧
    (∀ before indent inner right after, IsLineCut text e.offset before (indent ++ inner) right after →
      Indents indent (inner ++ right) →
        ∃ bar shown caret, Shows (before.length + 1) inner right bar shown caret ∧
          e.diagnostic text = head ++ "\n-> " ++ e.position.file ++ "\n" ++ bar ++ "\n" ++ shown ++ "\n" ++
            caret ++ "\n") ∧
    (text.utf8ByteSize < e.offset → e.diagnostic text = head ++ "\n-> " ++ e.position.file ++ "\n") ∧
    (text.utf8ByteSize < 2 ^ 32 → ∀ file, e ∈ (parse text file).2 →
      e.offset ≤ text.utf8ByteSize ∧ (∃ a b, text = a ++ b ∧ a.utf8ByteSize = e.offset) ∧
      ∀ before left right after, IsLineCut text e.offset before left right after →
        ∃ indent inner, left = indent ++ inner ∧ Indents indent (inner ++ right)) := by
  obtain ⟨head, hhead, hreport⟩ := e.exists_headline
  refine ⟨head, hhead, hhead.newline_not_mem, ?_, ?_, ?_, ?_⟩
  · intro a b htext hsize
    rw [← hsize]
    exact exists_isLineCut htext
  · intro before indent inner right after hcut hindent
    have hlocate : locate? text e.position.offset = _ := IsLineCut.locate?_eq hcut
    obtain ⟨bar, shown, caret, hshows, heq⟩ := shows_excerpt hindent hcut.newline_not_mem
    refine ⟨bar, shown, caret, hshows, ?_⟩
    rw [hreport, hlocate, Option.elim_some, heq]
    simp only [String.append_assoc]
  · intro hbehind
    rw [hreport, locate?_eq_none hbehind]
    exact String.append_empty
  · intro hsize file he
    refine ⟨(offset_le_of_parse text file).2 e he, (exists_append_of_errors hsize he).2, ?_⟩
    intro before left right after hcut
    exact exists_indents_of_errors hsize he hcut

/-- An error on the second line of a text, behind a tab and a character of two bytes, and one behind the
text. -/
theorem diagnostic_shows_second_line :
    "x;\n\té; let y 5;".utf8ByteSize < 2 ^ 32 ∧
    ∃ e ∈ (parse "x;\n\té; let y 5;" none).2,
      IsLineCut "x;\n\té; let y 5;" e.offset [['x', ';', '\n']] "\té; let y ".toList "5;".toList [] ∧
      (∃ indent inner, "\té; let y ".toList = indent ++ inner ∧ Indents indent (inner ++ "5;".toList)) ∧
      Indents ['\t'] ("é; let y ".toList ++ "5;".toList) ∧
      (∃ bar shown caret, Shows 2 "é; let y ".toList "5;".toList bar shown caret ∧
        e.diagnostic "x;\n\té; let y 5;" =
          "Error: ExpectedToken (expected next token is =, got INT instead)\n-> shell\n" ++
            bar ++ "\n" ++ shown ++ "\n" ++ caret ++ "\n") ∧
      e.diagnostic "x;\n\té; let y 5;" =
        "Error: ExpectedToken (expected next token is =, got INT instead)\n-> shell\n" ++
          "  |\n2 | é; let y 5;\n  | ---------^\n" ∧
      { e with position := ⟨17, "shell"⟩ }.diagnostic "x;\n\té; let y 5;" =
        "Error: ExpectedToken (expected next token is =, got INT instead)\n-> shell\n" := by
  have hsize : "x;\n\té; let y 5;".utf8ByteSize < 2 ^ 32 := by decide
  have he : ⟨.unexpected .assign .integer, ⟨14, "shell"⟩⟩ ∈ (parse "x;\n\té; let y 5;" none).2 := by
    decide
  have hfull : IsFullLine ['x', ';', '\n'] := ⟨['x', ';'], rfl, by decide⟩
  have hcut : IsLineCut "x;\n\té; let y 5;" 14 [['x', ';', '\n']] "\té; let y ".toList "5;".toList [] :=
    ⟨by decide, by decide, by simpa using hfull, by decide, .inr ⟨by decide, rfl⟩⟩
  have hindent : Indents ['\t'] ("é; let y ".toList ++ "5;".toList) := ⟨by simp, by simp⟩
  obtain ⟨head, hhead, -, -, hshows, -, herrors⟩ := diagnostic_shows
    ⟨.unexpected .assign .integer, ⟨14, "shell"⟩⟩ "x;\n\té; let y 5;"
  obtain ⟨-, -, hindents⟩ := herrors hsize none he
  obtain ⟨bar, shown, caret, hlines, hreport⟩ := hshows _ ['\t'] _ _ _ hcut hindent
  obtain ⟨head', hhead', -, -, -, hbehind, -⟩ := diagnostic_shows
    ⟨.unexpected .assign .integer, ⟨17, "shell"⟩⟩ "x;\n\té; let y 5;"
  cases hhead
  cases hhead'
  exact ⟨hsize, _, he, hcut, hindents _ _ _ _ hcut, hindent, ⟨bar, shown, caret, hlines, hreport⟩,
    by decide, hbehind (by decide)⟩

/-- Whatever stands in a literal is said on one line: a line feed by its letter, a space that shows nothing
by its number. -/
example : (SyntaxError.mk (.badNumeral "0x\n\u200b") ⟨4, "main.lang"⟩).diagnostic "ab" =
    "Error: IntegerParse (could not parse \"0x\\n\\u\x7b200b\x7d\" as integer)\n-> main.lang\n" := by
  decide +kernel

end Prattle
