import Mathlib.Data.List.Forall2
import Mathlib.Tactic.SplitIfs
import Prattle.Text.Quoted

/-!
# How texts are quoted

`Writes` says how a character is written between quotes: a quote, a backslash and the common control
characters with a backslash and a letter (`letters`), every other one as it is if it is plain, and by its
number in hexadecimal if not. `Quotes` says it of a text, character by character.

* **Every text is quoted in one way, the way of `quoted`** (`quotes_iff`).
* **All characters of a quotation are plain** (`Quotes.isPlain`), so it never breaks a line.
-/

namespace Prattle.Text

/-- The characters that are written with a backslash, and the letter behind it. -/
def letters : List (Char × Char) :=
  [('"', '"'), ('\\', '\\'), ('\n', 'n'), ('\r', 'r'), ('\t', 't'), ('\x00', '0')]

/-- How a character is written between quotes. -/
inductive Writes : Char → List Char → Prop
  | letter {c l : Char} (mem : (c, l) ∈ letters) : Writes c ['\\', l]
  | plain {c : Char} (others : c ∉ letters.map Prod.fst) (plain : isPlain c = true) : Writes c [c]
  | number {c : Char} (others : c ∉ letters.map Prod.fst) (plain : isPlain c = false) :
      Writes c (['\\', 'u', '\x7b'] ++ Nat.toDigits 16 c.toNat ++ ['\x7d'])

/-- The quotation is the text between quotes, one character written behind the other. -/
def Quotes (text quotation : String) : Prop :=
  ∃ pieces, List.Forall₂ Writes text.toList pieces ∧
    quotation.toList = ['"'] ++ pieces.flatten ++ ['"']

/-! ### Quotations are plain -/

/-- The hexadecimal digits are plain. -/
theorem isPlain_of_mem_toDigits {n : Nat} : ∀ c ∈ Nat.toDigits 16 n, isPlain c = true := by
  have hdigit : ∀ k < 16, isPlain (Nat.digitChar k) = true := by decide
  induction n using Nat.strongRecOn with
  | ind n ih =>
    rw [Nat.toDigits_eq_if (by decide)]
    split_ifs with hlt
    · simpa using hdigit n hlt
    · intro c hc
      rcases List.mem_append.mp hc with hc | hc
      · exact ih (n / 16) (by omega) c hc
      · rw [List.mem_singleton.mp hc]
        exact hdigit _ (Nat.mod_lt _ (by decide))

/-- Every character is written in plain ones. -/
theorem Writes.isPlain {c : Char} {piece : List Char} (h : Writes c piece) :
    ∀ d ∈ piece, isPlain d = true := by
  cases h with
  | @letter l mem =>
    have hletters : letters.all (fun entry => Text.isPlain entry.2) = true := by decide
    exact List.forall_mem_cons.mpr ⟨isPlain_of_ascii (by decide) (by decide),
      List.forall_mem_singleton.mpr (List.all_eq_true.mp hletters _ mem)⟩
  | plain others plain => exact List.forall_mem_singleton.mpr plain
  | number others plain =>
    have hfront : ['\\', 'u', '\x7b'].all Text.isPlain = true := by decide
    have hback : Text.isPlain '\x7d' = true := isPlain_of_ascii (by decide) (by decide)
    exact List.forall_mem_append.mpr ⟨List.forall_mem_append.mpr
      ⟨List.all_eq_true.mp hfront, isPlain_of_mem_toDigits⟩,
      List.forall_mem_singleton.mpr hback⟩

/-- **All characters of a quotation are plain.** -/
theorem Quotes.isPlain {text quotation : String} (h : Quotes text quotation) :
    ∀ c ∈ quotation.toList, isPlain c = true := by
  obtain ⟨pieces, hpieces, hquotation⟩ := h
  have hquote : Text.isPlain '"' = true := isPlain_of_ascii (by decide) (by decide)
  have hall : ∀ c ∈ pieces.flatten, Text.isPlain c = true := by
    clear hquotation
    generalize text.toList = cs at hpieces
    induction hpieces with
    | nil => simp
    | cons first more ih => exact List.forall_mem_append.mpr ⟨first.isPlain, ih⟩
  rw [hquotation]
  exact List.forall_mem_append.mpr ⟨List.forall_mem_append.mpr
    ⟨List.forall_mem_singleton.mpr hquote, hall⟩, List.forall_mem_singleton.mpr hquote⟩

/-! ### There is one quotation -/

/-- A character with a letter of its own is escaped by it. -/
theorem toList_escape_of_mem {c l : Char} (h : (c, l) ∈ letters) : (escape c).toList = ['\\', l] := by
  have hletters : ∀ entry ∈ letters, (escape entry.1).toList = ['\\', entry.2] := by decide
  exact hletters _ h

/-- A character without a letter is escaped by what it shows. -/
theorem toList_escape_of_not_mem {c : Char} (h : c ∉ letters.map Prod.fst) :
    (escape c).toList =
      if isPlain c then [c] else ['\\', 'u', '\x7b'] ++ Nat.toDigits 16 c.toNat ++ ['\x7d'] := by
  simp only [letters, List.map_cons, List.map_nil, List.mem_cons, List.not_mem_nil, or_false,
    not_or] at h
  unfold escape
  split
  case h_7 =>
    split_ifs
    · exact String.toList_singleton c
    · simp
  all_goals simp at h

/-- **A character is escaped as it is written between quotes.** -/
theorem writes_iff {c : Char} {piece : List Char} : Writes c piece ↔ (escape c).toList = piece := by
  constructor
  · intro h
    cases h with
    | letter mem => exact toList_escape_of_mem mem
    | plain others plain => rw [toList_escape_of_not_mem others, if_pos plain]
    | number others plain =>
      rw [toList_escape_of_not_mem others, if_neg (by simp [plain])]
  · rintro rfl
    by_cases hmem : c ∈ letters.map Prod.fst
    · obtain ⟨⟨c, l⟩, hentry, rfl⟩ := List.mem_map.mp hmem
      rw [toList_escape_of_mem hentry]
      exact .letter hentry
    · rw [toList_escape_of_not_mem hmem]
      split_ifs with hplain
      · exact .plain hmem hplain
      · exact .number hmem (Bool.eq_false_iff.mpr hplain)

/-- **Every text is quoted in one way**, the way of `quoted`. -/
theorem quotes_iff {text quotation : String} : Quotes text quotation ↔ quotation = quoted text := by
  have hwrites : Writes = fun c piece => (escape c).toList = piece := by
    funext c piece
    exact propext writes_iff
  have hpieces : ∀ pieces, List.Forall₂ Writes text.toList pieces ↔
      text.toList.map (fun c => (escape c).toList) = pieces := by
    intro pieces
    rw [hwrites, ← List.forall₂_map_left_iff (R := Eq), List.forall₂_eq_eq_eq]
  have hquoted : (quoted text).toList =
      ['"'] ++ (text.toList.map fun c => (escape c).toList).flatten ++ ['"'] := by
    simp [quoted, String.toList_join, List.flatMap_def, Function.comp_def]
  unfold Quotes
  simp only [hpieces, exists_eq_left', ← hquoted, String.toList_inj]

/-- A space that does not break a line and an accent without its letter are written by their numbers, a
letter that has its accent is plain. -/
example : quoted "é\xa0\u0301" = "\"é\\u\x7ba0\x7d\\u\x7b301\x7d\"" := by
  decide +kernel

end Prattle.Text
