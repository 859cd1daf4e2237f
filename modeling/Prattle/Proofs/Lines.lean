import Prattle.Proofs.Lexemes
import Prattle.Source.Line

/-!
# The line that an offset lies on

`StandsIn l p before line after column` says where the offset `p` lies: the characters are the lines `before`,
then `line` with the offset `column` bytes behind its start, and then `after`. Between two characters
`IsLineCut` says the same without counting: the line is `left ++ right`, and the offset lies between its parts.

* **Every offset stands in a line** (`exists_standsIn`), between two characters or not (`exists_isLineCut`).
* **`locate?` finds that line** (`StandsIn.locate?_eq`, `IsLineCut.locate?_eq`), and none for an offset behind
  the text (`locate?_eq_none`).
-/

namespace Prattle

/-! ### Bytes of characters -/

/-- The byte lengths of two texts add up. -/
@[simp] theorem byteLength_append (a b : List Char) : byteLength (a ++ b) = byteLength a + byteLength b := by
  induction a with
  | nil => simp [byteLength]
  | cons c a ih => simp [byteLength, ih, Nat.add_assoc]

/-- The byte length of characters is the number of their bytes. -/
theorem length_flatMap_utf8EncodeChar (l : List Char) :
    (l.flatMap String.utf8EncodeChar).length = byteLength l := by
  induction l with
  | nil => rfl
  | cons c l ih => simp [byteLength, ih, String.length_utf8EncodeChar]

/-- The byte length of the characters of a text is that of the text. -/
@[simp] theorem byteLength_toList (s : String) : byteLength s.toList = s.utf8ByteSize := by
  rw [← length_flatMap_utf8EncodeChar, ← bytes_ofList, String.ofList_toList, length_bytes]

/-- Only where there are no characters there are no bytes. -/
theorem byteLength_pos {l : List Char} (h : l ≠ []) : 0 < byteLength l := by
  cases l with
  | nil => exact absurd rfl h
  | cons c l => exact Nat.lt_of_lt_of_le c.utf8Size_pos (Nat.le_add_right _ _)

/-! ### Lines -/

/-- A line that another one follows: it ends with a line feed and has no other. -/
def IsFullLine (l : List Char) : Prop :=
  ∃ body, l = body ++ ['\n'] ∧ '\n' ∉ body

/-- A full line has a line feed, so it is not empty. -/
theorem IsFullLine.ne_nil {l : List Char} (h : IsFullLine l) : l ≠ [] := by
  obtain ⟨body, rfl, -⟩ := h
  simp

/-- Every text has a line. -/
theorem lines_ne_nil (l : List Char) : lines l ≠ [] := by
  fun_cases lines l <;> simp

/-- **The lines of a text are all of it**, in its order. -/
theorem flatten_lines (l : List Char) : (lines l).flatten = l := by
  fun_induction lines l with
  | case1 => rfl
  | case2 rest ih => simp [ih]
  | case3 c rest hc hnil ih => exact absurd hnil (lines_ne_nil rest)
  | case4 c rest hc line more heq ih =>
    rw [heq, List.flatten_cons] at ih
    rw [List.flatten_cons, List.cons_append, ih]

/-- A character that ends no line starts the first one. -/
theorem lines_cons_of_ne {c : Char} (hc : c ≠ '\n') {rest line : List Char} {more : List (List Char)}
    (h : lines rest = line :: more) : lines (c :: rest) = (c :: line) :: more := by
  rw [lines.eq_3 c rest hc, h]

/-- A full line is the first line of every text that it starts. -/
theorem lines_of_full {l : List Char} (h : IsFullLine l) (rest : List Char) :
    lines (l ++ rest) = l :: lines rest := by
  obtain ⟨body, rfl, hbody⟩ := h
  induction body with
  | nil => simp [lines]
  | cons c body ih =>
    simp only [List.mem_cons, not_or] at hbody
    exact lines_cons_of_ne (Ne.symm hbody.1) (ih hbody.2)

/-- A text without a line feed is one line. -/
theorem lines_of_not_mem {l : List Char} (h : '\n' ∉ l) : lines l = [l] := by
  induction l with
  | nil => rfl
  | cons c l ih =>
    simp only [List.mem_cons, not_or] at h
    exact lines_cons_of_ne (Ne.symm h.1) (ih h.2)

/-- A text is full lines, and what is left behind its last line feed. -/
theorem exists_lines_before (a : List Char) :
    ∃ (before : List (List Char)) (left : List Char), a = before.flatten ++ left ∧
      (∀ l ∈ before, IsFullLine l) ∧ '\n' ∉ left := by
  induction a with
  | nil => exact ⟨[], [], rfl, by simp, by simp⟩
  | cons c a ih =>
    obtain ⟨before, left, rfl, hbefore, hleft⟩ := ih
    by_cases hc : c = '\n'
    · refine ⟨['\n'] :: before, left, by simp [hc], ?_, hleft⟩
      exact List.forall_mem_cons.mpr ⟨⟨[], rfl, by simp⟩, hbefore⟩
    · -- the character belongs to the first of the lines, or to what is left if there is none
      rcases before with _ | ⟨line, before⟩
      · exact ⟨[], c :: left, by simp, by simp, by simp [hleft, Ne.symm hc]⟩
      · obtain ⟨⟨body, rfl, hbody⟩, hmore⟩ := List.forall_mem_cons.mp hbefore
        refine ⟨(c :: body ++ ['\n']) :: before, left, by simp, ?_, hleft⟩
        exact List.forall_mem_cons.mpr ⟨⟨c :: body, rfl, by simp [hbody, Ne.symm hc]⟩, hmore⟩

/-- A line ends with the first line feed, or with the text. -/
theorem exists_line_end (b : List Char) :
    ∃ right after, b = right ++ after ∧ (IsFullLine right ∨ ('\n' ∉ right ∧ after = [])) := by
  induction b with
  | nil => exact ⟨[], [], rfl, .inr ⟨by simp, rfl⟩⟩
  | cons c b ih =>
    by_cases hc : c = '\n'
    · exact ⟨['\n'], b, by simp [hc], .inl ⟨[], rfl, by simp⟩⟩
    · obtain ⟨right, after, rfl, ⟨body, rfl, hbody⟩ | ⟨hright, rfl⟩⟩ := ih
      · exact ⟨c :: body ++ ['\n'], after, by simp, .inl ⟨c :: body, rfl, by simp [hbody, Ne.symm hc]⟩⟩
      · exact ⟨c :: right, [], by simp, .inr ⟨by simp [hright, Ne.symm hc], rfl⟩⟩

/-- The search passes the lines in front of an offset, and counts them. -/
theorem locateIn_lines {number offset : Nat} {before : List (List Char)} {rest : List Char}
    (h : ∀ l ∈ before, IsFullLine l) :
    locateIn number (lines (before.flatten ++ rest)) (byteLength before.flatten + offset) =
      locateIn (number + before.length) (lines rest) offset := by
  induction before generalizing number with
  | nil => simp [byteLength]
  | cons l before ih =>
    obtain ⟨hl, hbefore⟩ := List.forall_mem_cons.mp h
    rw [List.flatten_cons, List.append_assoc, lines_of_full hl, byteLength_append, locateIn, if_neg,
      List.length_cons]
    · rw [Nat.add_assoc, Nat.add_sub_cancel_left, ih hbefore]
      congr 1
      omega
    · rintro (hlt | ⟨hnil, -⟩)
      · omega
      · exact lines_ne_nil _ hnil

/-! ### Standing in a line -/

/-- The offset stands in the line behind the lines `before`, at the given column. It does not stand at the
end of a line that another one follows. -/
structure StandsIn (l : List Char) (p : Nat) (before : List (List Char)) (line after : List Char)
    (column : Nat) : Prop where
  pieces : l = before.flatten ++ (line ++ after)
  place : byteLength before.flatten + column = p
  front : ∀ l ∈ before, IsFullLine l
  ends : (IsFullLine line ∧ column < byteLength line) ∨
    ('\n' ∉ line ∧ after = [] ∧ column ≤ byteLength line)

/-- **Every offset stands in a line.** -/
theorem exists_standsIn {l : List Char} {p : Nat} (hp : p ≤ byteLength l) :
    ∃ before line after column, StandsIn l p before line after column := by
  generalize hn : l.length = n
  induction n using Nat.strongRecOn generalizing l p with
  | ind n ih =>
    subst hn
    obtain ⟨line, after, rfl, hfull | ⟨hno, rfl⟩⟩ := exists_line_end l
    · by_cases hlt : p < byteLength line
      · exact ⟨[], line, after, p, rfl, Nat.zero_add p, by simp, .inl ⟨hfull, hlt⟩⟩
      · -- the offset stands in one of the lines behind the first one
        have hlength : 0 < line.length := List.length_pos_iff.mpr hfull.ne_nil
        have hshorter : after.length < (line ++ after).length := by
          rw [List.length_append]
          omega
        rw [byteLength_append] at hp
        have hrest : p - byteLength line ≤ byteLength after := by omega
        obtain ⟨before, line', after', column, h⟩ := ih _ hshorter hrest rfl
        refine ⟨line :: before, line', after', column, ?_, ?_, ?_, h.ends⟩
        · rw [List.flatten_cons, List.append_assoc, ← h.pieces]
        · rw [List.flatten_cons, byteLength_append, Nat.add_assoc, h.place]
          omega
        · exact List.forall_mem_cons.mpr ⟨hfull, h.front⟩
    · rw [List.append_nil] at hp
      exact ⟨[], line, [], p, rfl, Nat.zero_add p, by simp, .inr ⟨hno, rfl, hp⟩⟩

namespace StandsIn

variable {text : String} {p column : Nat} {before : List (List Char)} {line after : List Char}

/-- **An offset is found in the line that it stands in.** -/
theorem locate?_eq {k : UInt32} (h : StandsIn text.toList k.toNat before line after column) :
    locate? text k = some ⟨before.length + 1, line, column⟩ := by
  rw [locate?, h.pieces, ← h.place, locateIn_lines h.front, Nat.add_comm 1]
  rcases h.ends with ⟨hfull, hlt⟩ | ⟨hno, rfl, hle⟩
  · rw [lines_of_full hfull, locateIn, if_pos (.inl hlt)]
  · rw [List.append_nil, lines_of_not_mem hno, locateIn, if_pos]
    rcases Nat.lt_or_eq_of_le hle with hlt | heq
    · exact .inl hlt
    · exact .inr ⟨rfl, heq⟩

/-- A column is no further than the end of its line. -/
theorem column_le {l : List Char} (h : StandsIn l p before line after column) :
    column ≤ byteLength line := by
  rcases h.ends with ⟨-, hlt⟩ | ⟨-, -, hle⟩
  · exact Nat.le_of_lt hlt
  · exact hle

end StandsIn

/-! ### Cuts -/

/-- The offset lies on the line `left ++ right`, between its parts. The last line of a text has no line
feed, and nothing follows it. -/
structure IsLineCut (text : String) (offset : Nat) (before : List (List Char))
    (left right after : List Char) : Prop where
  pieces : text.toList = before.flatten ++ (left ++ right ++ after)
  place : byteLength before.flatten + byteLength left = offset
  front : ∀ l ∈ before, IsFullLine l
  unbroken : '\n' ∉ left
  ends : IsFullLine right ∨ ('\n' ∉ right ∧ after = [])

/-- **Every offset between two characters lies on a line.** -/
theorem exists_isLineCut {a b text : String} (htext : text = a ++ b) :
    ∃ before left right after, IsLineCut text a.utf8ByteSize before left right after := by
  obtain ⟨before, left, hbefore, hfront, hunbroken⟩ := exists_lines_before a.toList
  obtain ⟨right, after, hright, hends⟩ := exists_line_end b.toList
  refine ⟨before, left, right, after, ?_, ?_, hfront, hunbroken, hends⟩
  · rw [htext, String.toList_append, hbefore, hright]
    simp only [List.append_assoc]
  · rw [← byteLength_append, ← hbefore, byteLength_toList]

section cut

variable {text : String} {offset : Nat} {before : List (List Char)} {left right after : List Char}

/-- A line feed may only come last in a line. -/
theorem IsLineCut.newline_not_mem (h : IsLineCut text offset before left right after) :
    '\n' ∉ (left ++ right).dropLast := by
  rcases h.ends with ⟨body, rfl, hno⟩ | ⟨hno, -⟩
  · rw [← List.append_assoc, List.dropLast_concat]
    simp [h.unbroken, hno]
  · intro hmem
    have hline := List.dropLast_subset _ hmem
    simp [h.unbroken, hno] at hline

/-- An offset between two parts of a line stands in it, behind the left part. -/
theorem IsLineCut.standsIn (h : IsLineCut text offset before left right after) :
    StandsIn text.toList offset before (left ++ right) after (byteLength left) := by
  refine ⟨h.pieces, h.place, h.front, ?_⟩
  rw [byteLength_append]
  rcases h.ends with hfull | ⟨hno, hafter⟩
  · have hpos := byteLength_pos hfull.ne_nil
    obtain ⟨body, rfl, hno⟩ := hfull
    refine .inl ⟨⟨left ++ body, by simp, by simp [h.unbroken, hno]⟩, ?_⟩
    exact Nat.lt_add_of_pos_right hpos
  · exact .inr ⟨by simp [h.unbroken, hno], hafter, Nat.le_add_right _ _⟩

/-- **The line of an offset is found**, with its number and the bytes of it in front of the offset. -/
theorem IsLineCut.locate?_eq {k : UInt32} (h : IsLineCut text k.toNat before left right after) :
    locate? text k = some ⟨before.length + 1, left ++ right, byteLength left⟩ :=
  h.standsIn.locate?_eq

/-- Behind the last line there is no place. -/
theorem locateIn_eq_none {number : Nat} {ls : List (List Char)} (h : byteLength ls.flatten < offset) :
    locateIn number ls offset = none := by
  induction ls generalizing number offset with
  | nil => rfl
  | cons l ls ih =>
    rw [List.flatten_cons, byteLength_append] at h
    rw [locateIn, if_neg (by omega)]
    exact ih (by omega)

/-- **An offset behind the text lies on no line.** -/
theorem locate?_eq_none {k : UInt32} (h : text.utf8ByteSize < k.toNat) : locate? text k = none := by
  apply locateIn_eq_none
  rwa [flatten_lines, byteLength_toList]

/-- The byte at the offset is the first of what follows the offset. -/
theorem IsLineCut.getElem?_bytes (h : IsLineCut text offset before left right after) :
    (bytes text)[offset]? = ((right ++ after).flatMap String.utf8EncodeChar).head? := by
  have hbytes : bytes text = (before.flatten ++ left).flatMap String.utf8EncodeChar ++
      (right ++ after).flatMap String.utf8EncodeChar := by
    rw [← List.flatMap_append, ← bytes_ofList, ← String.ofList_toList (s := text), h.pieces]
    simp only [List.append_assoc]
  have hlength : ((before.flatten ++ left).flatMap String.utf8EncodeChar).length = offset := by
    rw [length_flatMap_utf8EncodeChar, byteLength_append, h.place]
  rw [hbytes, List.getElem?_append_right (by omega), hlength, Nat.sub_self, List.head?_eq_getElem?]

end cut

end Prattle
