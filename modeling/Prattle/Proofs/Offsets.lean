import Mathlib.Data.List.Basic
import Prattle.Proofs.Lines

/-!
# Offsets and places

`Location.IsOf` says of the bytes of a text which place an offset has: its line starts behind the last line
feed in front of it and goes on to the next one, its number counts the line feeds in front of it. Offsets
may stand between characters or inside of one, and the end of the text is an offset like any other.

* **No byte of another character is a line feed** (`lineFeed_mem_flatMap_iff`), so what is said of bytes can
  be said of characters (`StandsIn.isOf`) and the other way round (`Location.IsOf.exists_standsIn`).
* **`locate?` gives the place of an offset and no other** (`locate?_eq_some_iff`), and none only behind the
  text (`locate?_eq_none_iff`).
-/

namespace Prattle

/-- The byte of the line feed. -/
def lineFeed : UInt8 := '\n'.toUInt8

/-- The place is that of the offset `p` in the text. -/
structure Location.IsOf (place : Location) (text : String) (p : Nat) : Prop where
  /-- As many lines stand in front as there are line feeds in front of the offset. -/
  number : place.number = ((bytes text).take p).count lineFeed + 1
  column : place.column ≤ byteLength place.line
  /-- The line starts behind the last line feed in front of the offset, and ends with the next one or with
  the text. -/
  stands : ∃ before after, text = before ++ String.ofList place.line ++ after ∧
    before.utf8ByteSize + place.column = p ∧
    (before = "" ∨ before.toList.getLast? = some '\n') ∧
    lineFeed ∉ (bytes (String.ofList place.line)).take place.column ∧
    (IsFullLine place.line ∨ ('\n' ∉ place.line ∧ after = ""))

/-! ### Line feeds among the bytes -/

/-- Only the line feed itself has the byte of a line feed. -/
theorem lineFeed_mem_utf8EncodeChar_iff {c : Char} :
    lineFeed ∈ String.utf8EncodeChar c ↔ c = '\n' := by
  constructor
  · intro h
    by_cases hc : c.toNat < 128
    · rw [utf8EncodeChar_of_ascii hc, List.mem_singleton] at h
      have hnat := congrArg UInt8.toNat h
      rw [toNat_toUInt8_of_ascii hc] at hnat
      exact Char.toNat_inj.mp hnat.symm
    · have hhigh := le_of_mem_utf8EncodeChar (Nat.le_of_not_lt hc) _ h
      exact absurd hhigh (by decide)
  · rintro rfl
    decide

/-- **The line feeds among the bytes are those among the characters.** -/
theorem lineFeed_mem_flatMap_iff {l : List Char} :
    lineFeed ∈ l.flatMap String.utf8EncodeChar ↔ '\n' ∈ l := by
  simp [List.mem_flatMap, lineFeed_mem_utf8EncodeChar_iff]

/-- A full line has one line feed. -/
theorem IsFullLine.count {l : List Char} (h : IsFullLine l) :
    (l.flatMap String.utf8EncodeChar).count lineFeed = 1 := by
  obtain ⟨body, rfl, hno⟩ := h
  rw [List.flatMap_append, List.count_append, List.count_eq_zero.mpr]
  · rfl
  · exact fun hmem => hno (lineFeed_mem_flatMap_iff.mp hmem)

/-- Every line that another one follows has one line feed. -/
theorem count_lines {before : List (List Char)} (h : ∀ l ∈ before, IsFullLine l) :
    (before.flatten.flatMap String.utf8EncodeChar).count lineFeed = before.length := by
  induction before with
  | nil => rfl
  | cons l before ih =>
    obtain ⟨hl, hbefore⟩ := List.forall_mem_cons.mp h
    rw [List.flatten_cons, List.flatMap_append, List.count_append, hl.count, ih hbefore,
      List.length_cons, Nat.add_comm]

/-- What stands in front of a line is nothing, or ends with a line feed. -/
theorem getLast?_flatten {before : List (List Char)} (h : ∀ l ∈ before, IsFullLine l) :
    before = [] ∨ before.flatten.getLast? = some '\n' := by
  rcases List.eq_nil_or_concat' before with rfl | ⟨before, l, rfl⟩
  · exact .inl rfl
  · obtain ⟨body, rfl, -⟩ := h l (by simp)
    right
    simp

/-- The byte size of a text of characters is their byte length. -/
theorem utf8ByteSize_ofList (l : List Char) : (String.ofList l).utf8ByteSize = byteLength l := by
  rw [← byteLength_toList, String.toList_ofList]

/-! ### Places in a line -/

namespace StandsIn

variable {text : String} {p column : Nat} {before : List (List Char)} {line after : List Char}

/-- No line feed stands between the start of the line and the offset. -/
theorem lineFeed_not_mem_take {l : List Char} (h : StandsIn l p before line after column) :
    lineFeed ∉ (line.flatMap String.utf8EncodeChar).take column := by
  intro hmem
  rcases h.ends with ⟨⟨body, rfl, hno⟩, hlt⟩ | ⟨hno, -, -⟩
  · have hbody : column ≤ (body.flatMap String.utf8EncodeChar).length := by
      rw [byteLength_append] at hlt
      rw [length_flatMap_utf8EncodeChar]
      exact Nat.le_of_lt_succ hlt
    rw [List.flatMap_append, List.take_append_of_le_length hbody] at hmem
    exact hno (lineFeed_mem_flatMap_iff.mp (List.mem_of_mem_take hmem))
  · exact hno (lineFeed_mem_flatMap_iff.mp (List.mem_of_mem_take hmem))

/-- **As many lines stand in front as there are line feeds in front of the offset.** -/
theorem count_take (h : StandsIn text.toList p before line after column) :
    ((bytes text).take p).count lineFeed = before.length := by
  have hlength := length_flatMap_utf8EncodeChar before.flatten
  have hcolumn : column ≤ (line.flatMap String.utf8EncodeChar).length := by
    rw [length_flatMap_utf8EncodeChar]
    exact h.column_le
  rw [← String.ofList_toList (s := text), bytes_ofList, h.pieces, ← h.place, ← hlength,
    List.flatMap_append, List.take_length_add_append, List.flatMap_append,
    List.take_append_of_le_length hcolumn, List.count_append, count_lines h.front,
    List.count_eq_zero.mpr h.lineFeed_not_mem_take, Nat.add_zero]

/-- **The place that is found is the place of the offset.** -/
theorem isOf (h : StandsIn text.toList p before line after column) :
    Location.IsOf ⟨before.length + 1, line, column⟩ text p := by
  refine ⟨congrArg (· + 1) h.count_take.symm, h.column_le,
    .ofList before.flatten, .ofList after, ?_, ?_, ?_, ?_, ?_⟩
  · rw [← String.ofList_toList (s := text), h.pieces, String.ofList_append, String.ofList_append,
      String.append_assoc]
  · rw [utf8ByteSize_ofList, h.place]
  · rcases getLast?_flatten h.front with rfl | hlast
    · exact .inl rfl
    · right
      rwa [String.toList_ofList]
  · rw [bytes_ofList]
    exact h.lineFeed_not_mem_take
  · rcases h.ends with ⟨hfull, -⟩ | ⟨hno, rfl, -⟩
    · exact .inl hfull
    · exact .inr ⟨hno, rfl⟩

end StandsIn

section places

variable {text : String} {p : Nat} {place : Location}

/-- **An offset stands where its place is.** -/
theorem Location.IsOf.exists_standsIn (h : place.IsOf text p) :
    ∃ before after, StandsIn text.toList p before place.line after place.column := by
  obtain ⟨before, after, htext, hp, hlast, hno, hends⟩ := h.stands
  obtain ⟨front, left, hfront, hfull, hleft⟩ := exists_lines_before before.toList
  -- the line starts behind a line feed, so nothing is left in front of it
  have hnil : left = [] := by
    rcases List.eq_nil_or_concat' left with rfl | ⟨left, c, rfl⟩
    · rfl
    · rcases hlast with rfl | hlast
      · simp at hfront
      · rw [hfront, ← List.append_assoc, List.getLast?_concat] at hlast
        obtain rfl := Option.some.inj hlast
        simp at hleft
  rw [hnil, List.append_nil] at hfront
  refine ⟨front, after.toList, ?_, ?_, hfull, ?_⟩
  · rw [htext, String.toList_append, String.toList_append, hfront, String.toList_ofList,
      List.append_assoc]
  · rw [← hfront, byteLength_toList, hp]
  · rcases hends with hline | ⟨hline, rfl⟩
    · refine .inl ⟨hline, Nat.lt_of_le_of_ne h.column fun heq => ?_⟩
      rw [bytes_ofList, heq, ← length_flatMap_utf8EncodeChar, List.take_length,
        lineFeed_mem_flatMap_iff] at hno
      obtain ⟨body, hbody, -⟩ := hline
      simp [hbody] at hno
    · exact .inr ⟨hline, rfl, h.column⟩

/-- **`locate?` gives the place of an offset and no other.** -/
theorem locate?_eq_some_iff {k : UInt32} : locate? text k = some place ↔ place.IsOf text k.toNat := by
  constructor
  · intro h
    rcases Nat.lt_or_ge text.utf8ByteSize k.toNat with hlt | hle
    · rw [locate?_eq_none hlt] at h
      cases h
    · rw [← byteLength_toList] at hle
      obtain ⟨before, line, after, column, hstands⟩ := Prattle.exists_standsIn hle
      rw [hstands.locate?_eq] at h
      cases h
      exact hstands.isOf
  · intro h
    obtain ⟨before, after, hstands⟩ := h.exists_standsIn
    rw [hstands.locate?_eq, ← hstands.count_take, ← h.number]

/-- **Only behind the text there is no line.** -/
theorem locate?_eq_none_iff {k : UInt32} : locate? text k = none ↔ text.utf8ByteSize < k.toNat := by
  constructor
  · intro h
    by_contra hle
    rw [← byteLength_toList] at hle
    obtain ⟨before, line, after, column, hstands⟩ := Prattle.exists_standsIn (Nat.le_of_not_lt hle)
    rw [hstands.locate?_eq] at h
    cases h
  · exact locate?_eq_none

/-- Line numbers do not go down. -/
theorem Location.IsOf.number_le {q : Nat} {place' : Location} (h : place.IsOf text p)
    (h' : place'.IsOf text q) (hpq : p ≤ q) : place.number ≤ place'.number := by
  rw [h.number, h'.number]
  exact Nat.succ_le_succ ((List.take_sublist_take_left hpq).count_le lineFeed)

/-- Behind a line feed that a text ends with, the line is empty. -/
theorem Location.IsOf.line_eq_nil (h : place.IsOf text text.utf8ByteSize)
    (hlast : text = "" ∨ text.toList.getLast? = some '\n') : place.line = [] := by
  obtain ⟨before, after, hstands⟩ := h.exists_standsIn
  have hsize := hstands.place
  rw [← byteLength_toList, hstands.pieces, byteLength_append, byteLength_append] at hsize
  rcases hstands.ends with ⟨-, hlt⟩ | ⟨hno, rfl, -⟩
  · omega
  · rcases List.eq_nil_or_concat' place.line with hnil | ⟨body, c, hline⟩
    · exact hnil
    · have hpieces := hstands.pieces
      rw [hline, List.append_nil, ← List.append_assoc] at hpieces
      rcases hlast with rfl | hlast
      · simp at hpieces
      · rw [hpieces, List.getLast?_concat] at hlast
        obtain rfl := Option.some.inj hlast
        simp [hline] at hno

end places

/-- **Every offset up to the end of a text has one place, and `locate?` gives it**: the number of its line, the
line, and how far into the line it stands. The end of the text is no exception: behind a last line feed there
is an empty line. The numbers of the lines do not go down along the text. -/
theorem place_of_offset (text : String) (p : UInt32) :
    (locate? text p = none ↔ text.utf8ByteSize < p.toNat) ∧
    (∀ place, locate? text p = some place ↔ place.IsOf text p.toNat) ∧
    (∀ place, locate? text p = some place → p.toNat = text.utf8ByteSize →
      text = "" ∨ text.toList.getLast? = some '\n' → place.line = [] ∧ place.column = 0) ∧
    ∀ q place place', p ≤ q → locate? text p = some place → locate? text q = some place' →
      place.number ≤ place'.number := by
  refine ⟨locate?_eq_none_iff, fun place => locate?_eq_some_iff, ?_, ?_⟩
  · intro place hplace hend hlast
    have h := locate?_eq_some_iff.mp hplace
    have hcolumn := h.column
    rw [hend] at h
    have hnil := h.line_eq_nil hlast
    rw [hnil] at hcolumn
    exact ⟨hnil, Nat.le_zero.mp hcolumn⟩
  · intro q place place' hpq hplace hplace'
    have h := locate?_eq_some_iff.mp hplace
    have h' := locate?_eq_some_iff.mp hplace'
    exact h.number_le h' (UInt32.le_iff_toNat_le.mp hpq)

/-- The second byte of `é` stands where its first one does, one column on, and the text ends on a third
line. -/
example : locate? "a\né\n" 3 = some ⟨2, ['é', '\n'], 1⟩ ∧ locate? "a\né\n" 5 = some ⟨3, [], 0⟩ := by
  decide

end Prattle
