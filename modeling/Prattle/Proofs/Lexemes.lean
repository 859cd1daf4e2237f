import Mathlib.Data.List.TakeWhile
import Prattle.Proofs.Relocation
import Prattle.Token.Scanner

/-!
# Lexemes of a text

`lexemes` cuts bytes as a scanner does and keeps only the lexemes, so what a text falls into can be
said without offsets.

* **The tokens of a scanner have the faces of the lexemes** that are left (`map_face_tokens`),
  wherever it stands and whatever the file is called.
* **How a lexeme comes off**: `lexemes_cons` in general, and `lexemes_word`, `lexemes_digits` and
  `lexemes_single` by what may follow.
* **Where the lexemes stand** (`Scanner.tokens_of_lexeme`): the same bytes scanned from another place
  give the same tokens at other places (`Scanner.map_relocate_tokens`).
* **An ASCII text is its characters byte by byte** (`bytes_of_ascii`), and reads as it did
  (`Lexeme.text_bytes`).
-/

namespace Prattle

/-! ### Bytes -/

/-- The letters are those of ASCII and the underscore. -/
theorem isLetter_iff {b : UInt8} :
    isLetter b = true ↔
      97 ≤ b.toNat ∧ b.toNat ≤ 122 ∨ 65 ≤ b.toNat ∧ b.toNat ≤ 90 ∨ b.toNat = 95 := by
  simp only [isLetter, Bool.or_eq_true, Bool.and_eq_true, decide_eq_true_eq, beq_iff_eq,
    UInt8.le_iff_toNat_le, ← UInt8.toNat_inj, or_assoc]
  rfl

/-- The digits are those of ASCII. -/
theorem isDigit_iff {b : UInt8} : isDigit b = true ↔ 48 ≤ b.toNat ∧ b.toNat ≤ 57 := by
  simp only [isDigit, Bool.and_eq_true, decide_eq_true_eq, UInt8.le_iff_toNat_le]
  rfl

/-- A word goes on with letters and digits. -/
theorem isWordByte_iff {b : UInt8} :
    isWordByte b = true ↔ isLetter b = true ∨ isDigit b = true := by
  rw [isWordByte, Bool.or_eq_true]

/-- The blanks are the space, the tab, the line feed and the carriage return. -/
theorem isBlank_iff {b : UInt8} :
    isBlank b = true ↔ b.toNat = 32 ∨ b.toNat = 9 ∨ b.toNat = 10 ∨ b.toNat = 13 := by
  simp only [isBlank, Bool.or_eq_true, beq_iff_eq, ← UInt8.toNat_inj, or_assoc]
  rfl

/-- No byte of a word is a blank. -/
theorem isBlank_eq_false_of_isWordByte {b : UInt8} (hb : isWordByte b = true) :
    isBlank b = false := by
  rw [Bool.eq_false_iff, ne_eq, isBlank_iff]
  rw [isWordByte_iff, isLetter_iff, isDigit_iff] at hb
  omega

/-- No digit is a letter. -/
theorem isLetter_eq_false_of_isDigit {b : UInt8} (hb : isDigit b = true) : isLetter b = false := by
  rw [Bool.eq_false_iff, ne_eq, isLetter_iff]
  rw [isDigit_iff] at hb
  omega

/-- No letter is a digit. -/
theorem isDigit_eq_false_of_isLetter {b : UInt8} (hb : isLetter b = true) : isDigit b = false := by
  rw [Bool.eq_false_iff]
  intro hdigit
  rw [isLetter_eq_false_of_isDigit hdigit] at hb
  cases hb

/-! ### ASCII texts -/

/-- Texts with the same bytes are the same. -/
theorem bytes_inj {a b : String} : bytes a = bytes b ↔ a = b := by
  rw [← String.toByteArray_inj, ByteArray.ext_iff, ← Array.toList_inj]
  rfl

/-- All characters of the text are single bytes. -/
def IsAscii (s : String) : Prop :=
  ∀ c ∈ s.toList, c.toNat < 128

/-- A character of ASCII is one byte. -/
theorem utf8EncodeChar_of_ascii {c : Char} (h : c.toNat < 128) :
    String.utf8EncodeChar c = [c.toUInt8] := by
  have hval : c.val.toNat ≤ 127 := Nat.le_of_lt_succ h
  rw [String.utf8EncodeChar, if_pos hval]
  rfl

/-- All bytes of a character beyond ASCII have their highest bit set. -/
theorem le_of_mem_utf8EncodeChar {c : Char} (hc : 128 ≤ c.toNat) :
    ∀ b ∈ String.utf8EncodeChar c, 128 ≤ b.toNat := by
  have hval : ¬ c.val.toNat ≤ 127 := Nat.not_le.mpr hc
  unfold String.utf8EncodeChar
  dsimp only
  rw [if_neg hval]
  split_ifs
  all_goals
    simp only [List.forall_mem_cons, List.not_mem_nil, false_imp_iff, implies_true, and_true,
      UInt8.toNat_ofNat']
    omega

/-- The bytes of a text are those of its characters. -/
theorem bytes_ofList (l : List Char) :
    bytes (String.ofList l) = l.flatMap String.utf8EncodeChar := by
  rw [bytes, String.toByteArray_ofList, List.utf8Encode, List.data_toByteArray, List.toList_toArray]

/-- **An ASCII text is its characters byte by byte.** -/
theorem bytes_of_ascii {s : String} (h : IsAscii s) : bytes s = s.toList.map Char.toUInt8 := by
  have key : ∀ l : List Char, (∀ c ∈ l, c.toNat < 128) →
      l.flatMap String.utf8EncodeChar = l.map Char.toUInt8 := by
    intro l hl
    induction l with
    | nil => rfl
    | cons c l ih =>
      rw [List.flatMap_cons, utf8EncodeChar_of_ascii (hl c (by simp)),
        ih fun d hd => hl d (by simp [hd])]
      rfl
  rw [← String.ofList_toList (s := s), bytes_ofList, String.toList_ofList, key _ h]

/-- The byte of a character of ASCII has the number of the character. -/
theorem toNat_toUInt8_of_ascii {c : Char} (h : c.toNat < 128) : c.toUInt8.toNat = c.toNat := by
  show c.toNat % 256 = c.toNat
  omega

/-- All bytes of a text in ASCII are below 128. -/
theorem IsAscii.lt_of_mem {s : String} (h : IsAscii s) {b : UInt8} (hb : b ∈ bytes s) : b < 128 := by
  rw [bytes_of_ascii h] at hb
  obtain ⟨c, hc, rfl⟩ := List.mem_map.mp hb
  rw [UInt8.lt_iff_toNat_lt, toNat_toUInt8_of_ascii (h c hc)]
  exact h c hc

namespace Lexeme

/-- A character of ASCII is read back off its byte. -/
theorem char_toUInt8 {c : Char} (h : c.toNat < 128) : char c.toUInt8 = c := by
  have hnat := toNat_toUInt8_of_ascii h
  rw [char, if_pos]
  · exact Char.ext (UInt32.toNat_inj.mp hnat)
  · rw [UInt8.lt_iff_toNat_lt, hnat]
    exact h

/-- **An ASCII text reads as it is.** -/
theorem text_bytes {s : String} (h : IsAscii s) : text (bytes s) = s := by
  have hmap : s.toList.map (char ∘ Char.toUInt8) = s.toList.map id :=
    List.map_congr_left fun c hc => char_toUInt8 (h c hc)
  rw [text, bytes_of_ascii h, List.map_map, hmap, List.map_id, String.ofList_toList]

/-- Kind and text of the token that a lexeme makes. -/
def face (lexeme : List UInt8) : TokenKind × String :=
  (kind lexeme, text lexeme)

/-- A lexeme makes what is left shorter, and so do the blanks in front of it. -/
theorem length_after_lt {bs rest : List UInt8} {b : UInt8}
    (h : bs.dropWhile isBlank = b :: rest) : (after b rest).length < bs.length := by
  have hle : (bs.dropWhile isBlank).length ≤ bs.length := (List.dropWhile_sublist _).length_le
  have hafter := length_after_le b rest
  rw [h, List.length_cons] at hle
  omega

end Lexeme

/-! ### Taking one lexeme off -/

/-- The lexemes that bytes fall into. -/
def lexemes (bs : List UInt8) : List (List UInt8) :=
  match _h : bs.dropWhile isBlank with
  | [] => []
  | b :: rest => (b :: Lexeme.tail b rest) :: lexemes (Lexeme.after b rest)
termination_by bs.length
decreasing_by exact Lexeme.length_after_lt _h

/-- Blanks alone have no lexeme. -/
theorem lexemes_of_nil {bs : List UInt8} (h : bs.dropWhile isBlank = []) : lexemes bs = [] := by
  rw [lexemes]
  split
  · rfl
  · rename_i hcons
    rw [h] at hcons
    cases hcons

/-- The first lexeme is cut off behind the blanks, and the others are those of what is left. -/
theorem lexemes_of_cons {bs rest : List UInt8} {b : UInt8}
    (h : bs.dropWhile isBlank = b :: rest) :
    lexemes bs = (b :: Lexeme.tail b rest) :: lexemes (Lexeme.after b rest) := by
  rw [lexemes]
  split
  · rename_i hnil
    rw [h] at hnil
    cases hnil
  · rename_i b' rest' hcons
    rw [h] at hcons
    obtain ⟨rfl, rfl⟩ := List.cons.inj hcons
    rfl

namespace Scanner

/-- At blanks only there is no step. -/
theorem step?_of_nil {s : Scanner} (h : s.rest.dropWhile isBlank = []) : s.step? = none := by
  unfold step? skipBlanks
  dsimp only
  rw [h]

/-- **A step cuts off the lexeme behind the blanks.** -/
theorem step?_of_cons {s : Scanner} {b : UInt8} {rest : List UInt8}
    (h : s.rest.dropWhile isBlank = b :: rest) :
    s.step? =
      some (s.skipBlanks.tokenOf (b :: Lexeme.tail b rest),
        ⟨Lexeme.after b rest, s.skipBlanks.offset + (b :: Lexeme.tail b rest).length, s.file⟩) := by
  unfold step? skipBlanks
  dsimp only
  rw [h]

/-- **The tokens of a scanner have the faces of the lexemes that are left.** -/
theorem map_face_tokens (s : Scanner) :
    s.tokens.map Token.face = (lexemes s.rest).map Lexeme.face := by
  generalize hn : s.rest.length = n
  induction n using Nat.strongRecOn generalizing s with
  | ind n ih =>
    subst hn
    rcases hrest : s.rest.dropWhile isBlank with _ | ⟨b, rest⟩
    · rw [tokens_of_end (step?_of_nil hrest), lexemes_of_nil hrest]
      rfl
    · have hstep := step?_of_cons hrest
      rw [tokens_of_step? hstep, lexemes_of_cons hrest, List.map_cons, List.map_cons,
        ih _ (step?_length_lt hstep) _ rfl]
      rfl

end Scanner

/-- The empty text has no lexeme. -/
@[simp] theorem lexemes_nil : lexemes [] = [] :=
  lexemes_of_nil rfl

/-- A blank in front changes nothing. -/
theorem lexemes_blank {b : UInt8} (hb : isBlank b = true) (bs : List UInt8) :
    lexemes (b :: bs) = lexemes bs := by
  have hdrop : (b :: bs).dropWhile isBlank = bs.dropWhile isBlank := by
    rw [List.dropWhile_cons, if_pos hb]
  rcases h : bs.dropWhile isBlank with _ | ⟨b', rest⟩
  · rw [lexemes_of_nil h, lexemes_of_nil (hdrop.trans h)]
  · rw [lexemes_of_cons h, lexemes_of_cons (hdrop.trans h)]

/-- **A byte that is no blank starts a lexeme.** -/
theorem lexemes_cons {b : UInt8} (hb : isBlank b = false) (rest : List UInt8) :
    lexemes (b :: rest) = (b :: Lexeme.tail b rest) :: lexemes (Lexeme.after b rest) := by
  apply lexemes_of_cons
  rw [List.dropWhile_cons, hb]
  rfl

/-- A byte that nothing behind it continues is a lexeme. -/
theorem lexemes_single {b : UInt8} {rest : List UInt8} (hb : isBlank b = false)
    (htail : Lexeme.tail b rest = []) : lexemes (b :: rest) = [b] :: lexemes rest := by
  rw [lexemes_cons hb, Lexeme.after, htail]
  rfl

/-! ### Words and numbers -/

/-- A run of bytes ends in front of the first byte that is not of its sort. -/
theorem takeWhile_append_of_stop {p : UInt8 → Bool} {run rest : List UInt8}
    (hrun : ∀ b ∈ run, p b = true) (hrest : ∀ b ∈ rest.head?, p b = false) :
    (run ++ rest).takeWhile p = run := by
  rw [List.takeWhile_append_of_pos hrun]
  rcases rest with _ | ⟨b, rest⟩
  · simp
  · have hb : p b = false := hrest b (by simp)
    simp [hb]

/-- **A word reaches up to the first byte that continues no word.** -/
theorem lexemes_word {b : UInt8} {run rest : List UInt8} (hb : isLetter b = true)
    (hrun : ∀ c ∈ run, isWordByte c = true) (hrest : ∀ c ∈ rest.head?, isWordByte c = false) :
    lexemes (b :: run ++ rest) = (b :: run) :: lexemes rest := by
  have htail : Lexeme.tail b (run ++ rest) = run := by
    rw [Lexeme.tail, if_pos hb, takeWhile_append_of_stop hrun hrest]
  rw [List.cons_append, lexemes_cons, Lexeme.after, htail, List.drop_left]
  exact isBlank_eq_false_of_isWordByte (isWordByte_iff.mpr (.inl hb))

/-- **A number reaches up to the first byte that is no digit.** -/
theorem lexemes_digits {b : UInt8} {run rest : List UInt8} (hb : isDigit b = true)
    (hrun : ∀ c ∈ run, isDigit c = true) (hrest : ∀ c ∈ rest.head?, isDigit c = false) :
    lexemes (b :: run ++ rest) = (b :: run) :: lexemes rest := by
  have htail : Lexeme.tail b (run ++ rest) = run := by
    rw [Lexeme.tail, isLetter_eq_false_of_isDigit hb, if_neg Bool.false_ne_true, if_pos hb,
      takeWhile_append_of_stop hrun hrest]
  rw [List.cons_append, lexemes_cons, Lexeme.after, htail, List.drop_left]
  exact isBlank_eq_false_of_isWordByte (isWordByte_iff.mpr (.inr hb))

/-! ### Lexemes with their places -/

/-- Bytes are blanks only, or blanks in front of a lexeme. -/
theorem blanks_cases (bs : List UInt8) :
    (∀ b ∈ bs, isBlank b = true) ∨
    ∃ run b rest, bs = run ++ b :: rest ∧ (∀ c ∈ run, isBlank c = true) ∧ isBlank b = false := by
  induction bs with
  | nil => exact .inl fun b hb => absurd hb List.not_mem_nil
  | cons c cs ih =>
    rcases hc : isBlank c with _ | _
    · exact .inr ⟨[], c, cs, rfl, fun b hb => absurd hb List.not_mem_nil, hc⟩
    · rcases ih with hblank | ⟨run, b, rest, rfl, hrun, hb⟩
      · exact .inl (List.forall_mem_cons.mpr ⟨hc, hblank⟩)
      · exact .inr ⟨c :: run, b, rest, rfl, List.forall_mem_cons.mpr ⟨hc, hrun⟩, hb⟩

namespace Scanner

/-- Blanks alone have no token. -/
theorem tokens_of_blanks {bs : List UInt8} (h : ∀ b ∈ bs, isBlank b = true) (offset : Nat)
    (file : String) : (Scanner.mk bs offset file).tokens = [] := by
  apply tokens_of_end
  apply step?_of_nil
  rw [List.dropWhile_eq_nil_iff]
  exact h

/-- **The first token is the lexeme behind the blanks**, at the place where it stands. -/
theorem tokens_of_lexeme {run rest : List UInt8} {b : UInt8}
    (hrun : ∀ c ∈ run, isBlank c = true) (hb : isBlank b = false) (offset : Nat) (file : String) :
    (Scanner.mk (run ++ b :: rest) offset file).tokens =
      (Scanner.mk rest (offset + run.length) file).tokenOf (b :: Lexeme.tail b rest) ::
        (Scanner.mk (Lexeme.after b rest)
          (offset + run.length + (b :: Lexeme.tail b rest).length) file).tokens := by
  have hhead : ∀ c ∈ (b :: rest).head?, isBlank c = false := by
    rintro c ⟨⟩
    exact hb
  have hdrop : (run ++ b :: rest).dropWhile isBlank = b :: rest := by
    rw [List.dropWhile_append_of_pos hrun, List.dropWhile_cons, hb]
    rfl
  have htake := takeWhile_append_of_stop hrun hhead
  have hstep := @step?_of_cons ⟨run ++ b :: rest, offset, file⟩ b rest hdrop
  rw [tokens_of_step? hstep, skipBlanks]
  dsimp only
  rw [htake]
  rfl

/-- **The tokens of the same bytes at another place are the same at other places**, if `f` maps the
one place to the other byte by byte. -/
theorem map_relocate_tokens {f : Position → Position} {bs : List UInt8} {o o' : Nat}
    {file file' : String}
    (hf : ∀ k ≤ bs.length, f ⟨(o + k).toUInt32, file⟩ = ⟨(o' + k).toUInt32, file'⟩) :
    (Scanner.mk bs o file).tokens.map (·.relocate f) = (Scanner.mk bs o' file').tokens := by
  generalize hn : bs.length = n
  induction n using Nat.strongRecOn generalizing bs o o' with
  | ind n ih =>
    subst hn
    rcases blanks_cases bs with hblank | ⟨run, b, rest, rfl, hrun, hb⟩
    · rw [tokens_of_blanks hblank, tokens_of_blanks hblank]
      rfl
    · have hlexeme := congrArg List.length (Lexeme.tail_append_after b rest)
      rw [List.length_append] at hlexeme
      rw [List.length_append, List.length_cons] at hf
      rw [tokens_of_lexeme hrun hb, tokens_of_lexeme hrun hb, List.map_cons]
      congr 1
      · have hstart := hf run.length (by omega)
        have hstop := hf (run.length + (b :: Lexeme.tail b rest).length) (by
          rw [List.length_cons]
          omega)
        rw [← Nat.add_assoc, ← Nat.add_assoc] at hstop
        simp only [tokenOf, Token.relocate, Span.relocate, Span.ofRange, hstart, hstop]
      · refine ih _ ?_ (fun k hk => ?_) rfl
        · rw [List.length_append, List.length_cons]
          omega
        · have hplace := hf (run.length + (b :: Lexeme.tail b rest).length + k) (by
            rw [List.length_cons]
            omega)
          simp only [← Nat.add_assoc] at hplace ⊢
          exact hplace

/-- The end token moves as its offset does. -/
theorem relocate_endToken {f : Position → Position} {bs : List UInt8} {o o' : Nat}
    {file file' : String}
    (hf : f ⟨(o + bs.length).toUInt32, file⟩ = ⟨(o' + bs.length).toUInt32, file'⟩) :
    (Scanner.mk bs o file).endToken.relocate f = (Scanner.mk bs o' file').endToken := by
  simp only [endToken, Token.relocate, Span.relocate, Span.ofRange, hf]

end Scanner

end Prattle
