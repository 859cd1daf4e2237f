import Prattle.Proofs.Layout
import Prattle.Proofs.Resynchronisation

/-!
# The value of a binding or a return is never looked into

What stands between the `=` of a binding, or the word of a return, and the next `;` may be anything. It
does not even matter what stands in front of the statement, so that the statement may itself be a part of
something else that is skipped or broken.

* **No reading comes to stand in the value**: `Cursor.Masks` relates cursors in front of the values or on
  the opening of one, and behind every statement they are so again, or both at the end
  (`Grammar.masks_simulation`).
* **Texts that differ in such a value are parsed alike up to positions** (`parse_opaque_value`).
-/

namespace Prattle

/-! ### Openings -/

/-- Kind and text of the tokens that a skipped value stands behind: those of a binding up to its `=`, or
that of a return. -/
inductive Opening : List (TokenKind × String) → Prop
  | binding (word name assign : String) :
      Opening [(.letWord, word), (.identifier, name), (.assign, assign)]
  | returning (word : String) : Opening [(.returnWord, word)]

/-- Nothing that opens a statement is a semicolon. -/
theorem Opening.ne_semicolon {opening : List (TokenKind × String)} (h : Opening opening) :
    ∀ face ∈ opening, face.1 ≠ TokenKind.semicolon := by
  cases h with
  | binding => simp
  | returning => simp

/-- The opening, a value, and the `;` at which the value ends. -/
def Closed (opening faces : List (TokenKind × String)) : Prop :=
  ∃ value, faces = opening ++ (value ++ [(.semicolon, ";")]) ∧
    ∀ face ∈ value, face.1 ≠ TokenKind.semicolon

namespace Cursor

variable {opening value rest : List (TokenKind × String)} {c d : Cursor}

/-- The cursors see the same up to an opening, and behind it values that may differ. -/
def Masks (opening : List (TokenKind × String)) (c d : Cursor) : Prop :=
  ∃ before rest rest', c.faces = before ++ rest ∧ d.faces = before ++ rest' ∧
    Closed opening rest ∧ Closed opening rest'

/-- Behind the cursors values are masked, or nothing is left. -/
def MasksBehind (opening : List (TokenKind × String)) (c d : Cursor) : Prop :=
  Masks opening c.advance d.advance ∨ c.advance.atEnd = true ∧ d.advance.atEnd = true

/-- **Cursors are on the opening, or on a token in front of it.** -/
theorem Masks.cases (ho : Opening opening) (h : Masks opening c d) :
    c.current.face = d.current.face ∧ c.atEnd = false ∧ d.atEnd = false ∧
      (Closed opening c.faces ∧ Closed opening d.faces ∧
          Grammar.standard.statement? c.current.kind ≠ none ∨
        Masks opening c.advance d.advance) := by
  obtain ⟨before, rest, rest', hc, hd, hrest, hrest'⟩ := h
  rcases before with _ | ⟨face, before⟩
  · rw [List.nil_append] at hc hd
    rw [hc, hd]
    obtain ⟨value, rfl, -⟩ := id hrest
    obtain ⟨value', rfl, -⟩ := id hrest'
    have hstarts : ∀ {face tail}, opening = face :: tail →
        Grammar.standard.statement? face.1 ≠ none := by
      rintro face tail rfl
      cases ho <;> exact Option.some_ne_none _
    rcases opening with _ | ⟨face, opening⟩
    · cases ho
    · have hface := current_of_faces hc
      refine ⟨hface.trans (current_of_faces hd).symm, atEnd_of_faces hc, atEnd_of_faces hd,
        .inl ⟨hrest, hrest', ?_⟩⟩
      have hkind : c.current.kind = face.1 := congrArg Prod.fst hface
      rw [hkind]
      exact hstarts rfl
  · exact ⟨(current_of_faces hc).trans (current_of_faces hd).symm, atEnd_of_faces hc,
      atEnd_of_faces hd, .inr ⟨before, rest, rest', faces_advance hc, faces_advance hd, hrest, hrest'⟩⟩

/-! ### Skipping -/

/-- Skipping to a semicolon drops the faces in front of it. -/
theorem faces_skipToSemicolon (c : Cursor) :
    c.skipToSemicolon.faces = c.faces.dropWhile (·.1 ≠ .semicolon) := by
  rw [faces, tokens_skipToSemicolon, faces, List.dropWhile_map]
  rfl

/-- Skipping a value ends on the last `;`. -/
theorem atEnd_of_value (h : c.faces = value ++ [(.semicolon, ";")])
    (hvalue : ∀ face ∈ value, face.1 ≠ TokenKind.semicolon) :
    c.skipToSemicolon.advance.atEnd = true := by
  have hlast : c.skipToSemicolon.faces = [(.semicolon, ";")] := by
    rw [faces_skipToSemicolon, h, List.dropWhile_append_of_pos (by simpa using hvalue)]
    rfl
  exact atEnd_of_faces_nil (faces_advance hlast)

/-- **Skipping from masked cursors** ends on a `;` in front of the values, or behind both values on the
last one. -/
theorem Masks.skipToSemicolon (ho : Opening opening) (h : Masks opening c d) :
    MasksBehind opening c.skipToSemicolon d.skipToSemicolon := by
  obtain ⟨before, rest, rest', hc, hd, hrest, hrest'⟩ := h
  rcases hbefore : before.dropWhile (·.1 ≠ .semicolon) with _ | ⟨face, after⟩
  · have hnone : ∀ face ∈ before, face.1 ≠ TokenKind.semicolon := by
      simpa using List.dropWhile_eq_nil_iff.mp hbefore
    have hlast : ∀ {c : Cursor} {rest : List (TokenKind × String)}, c.faces = before ++ rest →
        Closed opening rest → c.skipToSemicolon.advance.atEnd = true := by
      rintro c - hc ⟨value, rfl, hvalue⟩
      have hfaces : c.faces = before ++ (opening ++ value) ++ [(.semicolon, ";")] := by
        rw [hc, List.append_assoc, List.append_assoc]
      exact atEnd_of_value hfaces (List.forall_mem_append.mpr
        ⟨hnone, List.forall_mem_append.mpr ⟨ho.ne_semicolon, hvalue⟩⟩)
    exact .inr ⟨hlast hc hrest, hlast hd hrest'⟩
  · have hbehind : ∀ {c : Cursor} {rest : List (TokenKind × String)}, c.faces = before ++ rest →
        c.skipToSemicolon.advance.faces = after ++ rest := by
      intro c rest hc
      have hfaces : c.skipToSemicolon.faces = face :: (after ++ rest) := by
        rw [faces_skipToSemicolon, hc, List.dropWhile_append, hbefore]
        rfl
      exact faces_advance hfaces
    exact .inl ⟨after, rest, rest', hbehind hc, hbehind hd, hrest, hrest'⟩

end Cursor

namespace Grammar

variable {opening : List (TokenKind × String)} {c d : Cursor}

/-! ### Reading from masked cursors -/

/-- A binding up to its `=`, with a value behind it, is the binding of its name, whatever the value is. -/
theorem statement_of_closed_binding {word name assign : String} {value : List (TokenKind × String)}
    (hc : c.faces = [(.letWord, word), (.identifier, name), (.assign, assign)] ++
      (value ++ [(.semicolon, ";")]))
    (hvalue : ∀ face ∈ value, face.1 ≠ TokenKind.semicolon) :
    ∃ s c', standard.statement c = ⟨some s, none, c'⟩ ∧ c'.advance.atEnd = true ∧
      s.unplaced = .binding ⟨.letWord, word, default⟩ (.ofToken ⟨.identifier, name, default⟩) none
        default := by
  have hfaces := Cursor.faces_advance hc
  have hword := Cursor.current_of_faces hc
  have hname := Cursor.current_of_faces hfaces
  have hassign := Cursor.current_of_faces (Cursor.faces_advance hfaces)
  rw [Cursor.current_advance] at hname hassign
  have hrule : standard.statement? c.current.kind = some .binding := by
    rw [show c.current.kind = .letWord from congrArg Prod.fst hword]
    rfl
  have hread : ruleStatement .binding c = ⟨.ok _, _⟩ := Cursor.binding_eq_ok_iff.mpr
    ⟨congrArg Prod.fst hname, congrArg Prod.fst hassign, rfl, rfl⟩
  refine ⟨_, _, statement_of_rule_ok hrule hread, ?_, ?_⟩
  · have hassigned : c.advance.advance.faces = (.assign, assign) :: value ++ [(.semicolon, ";")] :=
      Cursor.faces_advance hfaces
    exact Cursor.atEnd_of_value hassigned (List.forall_mem_cons.mpr ⟨TokenKind.noConfusion, hvalue⟩)
  · obtain ⟨hkind, htext⟩ := Prod.mk.inj hword
    obtain ⟨hkind', htext'⟩ := Prod.mk.inj hname
    rw [Stmt.unplaced, Stmt.relocate, Identifier.relocate_ofToken, Token.relocate, Token.relocate, hkind,
      htext, hkind', htext']
    rfl

/-- A return with a value behind it is a return, whatever the value is. -/
theorem statement_of_closed_returning {word : String} {value : List (TokenKind × String)}
    (hc : c.faces = [(.returnWord, word)] ++ (value ++ [(.semicolon, ";")]))
    (hvalue : ∀ face ∈ value, face.1 ≠ TokenKind.semicolon) :
    ∃ s c', standard.statement c = ⟨some s, none, c'⟩ ∧ c'.advance.atEnd = true ∧
      s.unplaced = .returning ⟨.returnWord, word, default⟩ none default := by
  have hword := Cursor.current_of_faces hc
  have hrule : standard.statement? c.current.kind = some .returning := by
    rw [show c.current.kind = .returnWord from congrArg Prod.fst hword]
    rfl
  have hread : ruleStatement .returning c = ⟨.ok _, _⟩ := rfl
  refine ⟨_, _, statement_of_rule_ok hrule hread,
    Cursor.atEnd_of_value (Cursor.faces_advance hc) hvalue, ?_⟩
  obtain ⟨hkind, htext⟩ := Prod.mk.inj hword
  rw [Stmt.unplaced, Stmt.relocate, Token.relocate, hkind, htext]
  rfl

/-- **A statement that starts with an opening is the same whatever its value.** -/
theorem alike_of_closed (ho : Opening opening) (hc : Closed opening c.faces)
    (hd : Closed opening d.faces) :
    Alike (fun _ => default) (fun _ => default) (fun _ => False) (Cursor.MasksBehind opening)
      (standard.statement c) (standard.statement d) := by
  have hread : ∃ s : Stmt, ∀ {c : Cursor}, Closed opening c.faces →
      ∃ s' c', standard.statement c = ⟨some s', none, c'⟩ ∧ c'.advance.atEnd = true ∧
        s'.unplaced = s := by
    cases ho with
    | binding => exact ⟨_, fun ⟨_, hfaces, hvalue⟩ => statement_of_closed_binding hfaces hvalue⟩
    | returning => exact ⟨_, fun ⟨_, hfaces, hvalue⟩ => statement_of_closed_returning hfaces hvalue⟩
  obtain ⟨s, hread⟩ := hread
  obtain ⟨s₁, c', hreadc, hlast, hs₁⟩ := hread hc
  obtain ⟨s₂, d', hreadd, hlast', hs₂⟩ := hread hd
  rw [hreadc, hreadd]
  exact .alike rfl (congrArg some (hs₁.trans hs₂.symm)) (.inr ⟨hlast, hlast'⟩)

/-- **No reading comes to stand in a value**: no expression steps over a word that a rule starts with, a
rule that starts in front of the opening fails or skips there, and one that starts at the opening skips its
value. -/
theorem masks_simulation (ho : Opening opening) :
    StatementSimulation (fun kind => standard.statement? kind = none) (fun _ => default)
      (fun _ => default) (fun _ => False) (Cursor.Masks opening) (Cursor.MasksBehind opening) where
  current h := Token.relocate_of_face (h.cases ho).1
  atEnd h := (h.cases ho).2.1.trans (h.cases ho).2.2.1.symm
  advance h hstep := by
    obtain ⟨-, -, -, ⟨-, -, hrule⟩ | hnext⟩ := h.cases ho
    · exact absurd hstep hrule
    · exact .inr hnext
  out := id
  within := by
    refine ⟨?_, ?_, rfl⟩
    · intro kind rule hrule
      cases kind <;> first | rfl | cases hrule
    · intro kind op hop
      cases kind <;> first | rfl | cases hop
  span _ := rfl
  ends h hkind := by
    obtain ⟨-, -, -, ⟨-, -, hrule⟩ | hnext⟩ := h.cases ho
    · rcases hkind with hstep | hkind
      · exact absurd hstep hrule
      · rw [hkind] at hrule
        exact absurd rfl hrule
    · exact .inl hnext
  skip h := .inr (h.skipToSemicolon ho)
  rule h _ := by
    obtain ⟨-, -, -, ⟨hc, hd, -⟩ | hnext⟩ := h.cases ho
    · exact .inl (alike_of_closed ho hc hd)
    · exact .inr ⟨.inl hnext, .inr hnext⟩

end Grammar

/-! ### Texts -/

section texts

variable {opening : List (TokenKind × String)} {start : String}

/-- The text is scanned into the opening, whatever follows, and starts with a blank. -/
structure IsOpeningText (start : String) (opening : List (TokenKind × String)) : Prop where
  isOpening : Opening opening
  blank : ∃ run, bytes start = ' '.toUInt8 :: run
  scanned : ∀ rest : List UInt8,
    (lexemes (bytes start ++ rest)).map Lexeme.face = opening ++ (lexemes rest).map Lexeme.face

/-- A binding up to its value opens a statement. -/
theorem isOpeningText_binding {x : String} (hword : IsWord x)
    (hfree : x ∉ TokenKind.reserved.map Prod.fst) :
    IsOpeningText (" let " ++ x ++ " = ") [(.letWord, "let"), (.identifier, x), (.assign, "=")] where
  isOpening := .binding _ _ _
  blank := by
    rw [bytes_append, bytes_append]
    exact ⟨_, rfl⟩
  scanned rest := by
    have hsplit : bytes (" let " ++ x ++ " = ") ++ rest = ' '.toUInt8 :: (bytes "let" ++
        ' '.toUInt8 :: (bytes x ++ ' '.toUInt8 :: (bytes "=" ++ ' '.toUInt8 :: rest))) := by
      simp only [bytes_append, List.append_assoc]
      rfl
    have hlet : Spells .letWord "let" := .reserved (by decide)
    have hassign : Spells .assign "=" := @Spells.symbol .assign (by decide)
    rw [hsplit, lexemes_blank (by decide), hlet.lexemes_blank, (Spells.name hword hfree).lexemes_blank,
      hassign.lexemes_blank]
    rfl

/-- The word `return` opens a statement. -/
theorem isOpeningText_returning : IsOpeningText " return " [(.returnWord, "return")] where
  isOpening := .returning _
  blank := ⟨_, rfl⟩
  scanned rest := by
    have hreturn : Spells .returnWord "return" := .reserved (by decide)
    have hsplit : bytes " return " ++ rest = ' '.toUInt8 :: (bytes "return" ++ ' '.toUInt8 :: rest) := rfl
    rw [hsplit, lexemes_blank (by decide), hreturn.lexemes_blank]
    rfl

/-- Up to the `;` that ends the value, a text is what stands in front of the opening, and the opening with
its value. -/
theorem exists_closed_of_text (hstart : IsOpeningText start opening) (a r : String)
    (file : Option String) (hr : ∀ t ∈ tokenize r file, t.kind ≠ .semicolon) :
    ∃ rest, (Cursor.ofText (a ++ start ++ r ++ ";") file).faces =
      (lexemes (bytes a)).map Lexeme.face ++ rest ∧ Closed opening rest := by
  refine ⟨_, ?_, (lexemes (bytes r)).map Lexeme.face, rfl, ?_⟩
  · obtain ⟨run, hrun⟩ := hstart.blank
    have hsplit : bytes (a ++ start ++ r ++ ";") =
        bytes a ++ ' '.toUInt8 :: (run ++ (bytes r ++ ';'.toUInt8 :: [])) := by
      rw [bytes_append, bytes_append, bytes_append, hrun]
      simp only [List.append_assoc, List.cons_append]
      rfl
    have hend : (lexemes [';'.toUInt8]).map Lexeme.face = [(.semicolon, ";")] := by
      rw [lexemes_single (by decide) rfl, lexemes_nil]
      rfl
    rw [Cursor.faces_ofText, hsplit, map_face_lexemes_append_stop (by decide) (by decide),
      ← List.cons_append, ← hrun, hstart.scanned,
      map_face_lexemes_append_stop (by decide) (by decide), hend]
  · intro face hface
    rw [← Cursor.faces_ofText r file] at hface
    obtain ⟨t, ht, rfl⟩ := List.mem_map.mp hface
    exact hr t (List.mem_append_left _ ht)

/-- **Texts that differ in a value are parsed alike**, whatever stands in front of its opening and behind
its end. -/
theorem sameUpToPlaces_of_opening (hstart : IsOpeningText start opening) (a b : String)
    {r₁ r₂ : String} (file : Option String) (h₁ : ∀ t ∈ tokenize r₁ file, t.kind ≠ .semicolon)
    (h₂ : ∀ t ∈ tokenize r₂ file, t.kind ≠ .semicolon) :
    SameUpToPlaces (parse (a ++ start ++ r₁ ++ ";" ++ b) file)
      (parse (a ++ start ++ r₂ ++ ";" ++ b) file) := by
  obtain ⟨rest₁, hfaces₁, hclosed₁⟩ := exists_closed_of_text hstart a r₁ file h₁
  obtain ⟨rest₂, hfaces₂, hclosed₂⟩ := exists_closed_of_text hstart a r₂ file h₂
  -- up to the `;` the readings are in step, behind it both read `b`
  obtain ⟨hvalues, herrors⟩ := (Grammar.masks_simulation hstart.isOpening).alike_statements id
    ⟨_, _, _, hfaces₁, hfaces₂, hclosed₁, hclosed₂⟩
  obtain ⟨d₁, htokens₁, heof₁, hvalues₁, herrors₁⟩ :=
    Grammar.statements_of_extends (extends_ofText (a ++ start ++ r₁) b file)
  obtain ⟨d₂, htokens₂, heof₂, hvalues₂, herrors₂⟩ :=
    Grammar.statements_of_extends (extends_ofText (a ++ start ++ r₂) b file)
  have hbehind : d₁.faces = d₂.faces := by
    rw [Cursor.faces, Cursor.faces, htokens₁, htokens₂, Scanner.map_face_tokens,
      Scanner.map_face_tokens]
    rfl
  have heof : d₁.eof.face = d₂.eof.face := by
    rw [heof₁, heof₂]
    rfl
  obtain ⟨hvalues', herrors'⟩ := Grammar.unplaced_of_faces hbehind heof
  rw [parse_eq, parse_eq]
  constructor
  · refine congrArg Program.mk ?_
    dsimp only
    rw [hvalues₁, hvalues₂, List.map_append, List.map_append]
    exact congrArg₂ _ hvalues hvalues'
  · dsimp only
    rw [herrors₁, herrors₂, List.map_append, List.map_append]
    exact congrArg₂ _ herrors herrors'

end texts

/-- **The value of a binding or a return is never looked into**: what stands between its opening and the
next `;` may be exchanged for anything else without a `;`, and neither the program nor the errors change
but for the positions. What stands in front of the opening may be broken in any way. -/
theorem parse_opaque_value (a b x r₁ r₂ : String) (file : Option String) (hword : IsWord x)
    (hfree : x ∉ TokenKind.reserved.map Prod.fst)
    (h₁ : ∀ t ∈ tokenize r₁ file, t.kind ≠ .semicolon)
    (h₂ : ∀ t ∈ tokenize r₂ file, t.kind ≠ .semicolon) :
    (SameUpToPlaces (parse (a ++ " let " ++ x ++ " = " ++ r₁ ++ ";" ++ b) file)
        (parse (a ++ " let " ++ x ++ " = " ++ r₂ ++ ";" ++ b) file) ∧
      (parse (a ++ " let " ++ x ++ " = " ++ r₁ ++ ";" ++ b) file).1.render =
        (parse (a ++ " let " ++ x ++ " = " ++ r₂ ++ ";" ++ b) file).1.render ∧
      (parse (a ++ " let " ++ x ++ " = " ++ r₁ ++ ";" ++ b) file).2.map SyntaxError.cause =
        (parse (a ++ " let " ++ x ++ " = " ++ r₂ ++ ";" ++ b) file).2.map SyntaxError.cause) ∧
    SameUpToPlaces (parse (a ++ " return " ++ r₁ ++ ";" ++ b) file)
        (parse (a ++ " return " ++ r₂ ++ ";" ++ b) file) ∧
      (parse (a ++ " return " ++ r₁ ++ ";" ++ b) file).1.render =
        (parse (a ++ " return " ++ r₂ ++ ";" ++ b) file).1.render ∧
      (parse (a ++ " return " ++ r₁ ++ ";" ++ b) file).2.map SyntaxError.cause =
        (parse (a ++ " return " ++ r₂ ++ ";" ++ b) file).2.map SyntaxError.cause := by
  have hassoc : ∀ r : String, a ++ " let " ++ x ++ " = " ++ r = a ++ (" let " ++ x ++ " = ") ++ r := by
    intro r
    simp only [String.append_assoc]
  have hbinding := sameUpToPlaces_of_opening (isOpeningText_binding hword hfree) a b file h₁ h₂
  have hreturning := sameUpToPlaces_of_opening isOpeningText_returning a b file h₁ h₂
  rw [hassoc, hassoc]
  exact ⟨⟨hbinding, hbinding.render, hbinding.causes⟩, hreturning, hreturning.render,
    hreturning.causes⟩

/-- Behind an open group, in front of its end, and with values that are no expressions. -/
theorem parse_opaque_value_in_group :
    IsWord "y" ∧ "y" ∉ TokenKind.reserved.map Prod.fst ∧
    (∀ t ∈ tokenize "let ) é" none, t.kind ≠ .semicolon) ∧
    (∀ t ∈ tokenize "99999999999999999999 return" none, t.kind ≠ .semicolon) ∧
    SameUpToPlaces (parse ("x (a +" ++ " let " ++ "y" ++ " = " ++ "let ) é" ++ ";" ++ " b ) c") none)
      (parse ("x (a +" ++ " let " ++ "y" ++ " = " ++ "99999999999999999999 return" ++ ";" ++ " b ) c")
        none) ∧
    SameUpToPlaces (parse ("x (a +" ++ " return " ++ "let ) é" ++ ";" ++ " b ) c") none)
      (parse ("x (a +" ++ " return " ++ "99999999999999999999 return" ++ ";" ++ " b ) c") none) := by
  have hword : IsWord "y" := ⟨'y', [], rfl, by decide, fun d hd => absurd hd List.not_mem_nil⟩
  have hfree : "y" ∉ TokenKind.reserved.map Prod.fst := by decide
  have h₁ : ∀ t ∈ tokenize "let ) é" none, t.kind ≠ .semicolon := by decide
  have h₂ : ∀ t ∈ tokenize "99999999999999999999 return" none, t.kind ≠ .semicolon := by decide
  obtain ⟨⟨hbinding, -, -⟩, hreturning, -, -⟩ := parse_opaque_value "x (a +" " b ) c" "y" "let ) é"
    "99999999999999999999 return" none hword hfree h₁ h₂
  exact ⟨hword, hfree, h₁, h₂, hbinding, hreturning⟩

end Prattle
