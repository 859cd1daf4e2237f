import Mathlib.Data.List.Chain
import Prattle.Proofs.Parsed
import Prattle.Proofs.RoundTrip

/-!
# Which programs can be read back

`Program.render` writes the statements with nothing between them. Two neighbours fuse (`Stmt.fuses`) if
the last token of the first and the first token of the second then become one: a word in front of a word
or a number, or a number in front of a number.

* **Neighbours fuse iff the first goes on with the first byte of the second**
  (`Stmt.WellFormed.head_render`).
* **A statement that nothing goes on with is read back** (`Grammar.gives_statement`), as its rendering
  shows it: an expression then starts with the token that its rendering starts with (`Stmt.reread`).
* **A statement that goes on is not** (`Grammar.content_ne_of_goesOn`), because its token has grown.
* **So a program can be read back from its rendering iff no neighbours fuse**
  (`Grammar.reread_of_isChain` and `Grammar.isChain_of_content`, by induction on its statements).
-/

namespace Prattle

/-! ### Fusing neighbours -/

/-- The first token of the rendering: a leaf, or the parenthesis in front of an operation. -/
def Expr.opening : Expr → Token
  | unary .. | binary .. => ⟨.leftParen, "(", default⟩
  | e => e.token

/-- The tokens of an expression start with its opening one. -/
theorem Expr.exists_faces (e : Expr) : ∃ rest, e.faces = e.opening.face :: rest := by
  cases e <;> exact ⟨_, rfl⟩

namespace Stmt

/-- The statement is a name or a truth value on its own. -/
def isBareWord : Stmt → Bool
  | expression _ (some e) _ => e.isWord
  | _ => false

/-- The statement is an integer on its own. -/
def isBareInteger : Stmt → Bool
  | expression _ (some e) _ => e.isInteger
  | _ => false

/-- The statement starts with a reserved word: it is a binding or a return. -/
def isRule : Stmt → Bool
  | binding .. | returning .. => true
  | expression .. => false

/-- With nothing between the two, the first token of `s'` goes on with the last token of `s`. -/
def fuses (s s' : Stmt) : Bool :=
  s.isBareWord && (s'.isBareWord || s'.isBareInteger || s'.isRule) ||
    s.isBareInteger && s'.isBareInteger

/-- Whether the byte, directly behind the rendering, belongs to its last token. -/
def goesOn (s : Stmt) (b : UInt8) : Bool :=
  s.isBareWord && isWordByte b || s.isBareInteger && isDigit b

/-- The statement without its places, as its rendering shows it: an expression starts with the first
token of the rendering. Where parentheses were left out or doubled, it was read from another one. -/
def reread : Stmt → Stmt
  | expression t value span => unplaced (expression (value.elim t Expr.opening) value span)
  | s => s.unplaced

/-- The statement without its places and, if it is an expression, without the token that it started
with. -/
def content : Stmt → Stmt
  | expression _ value span => unplaced (expression default value span)
  | s => s.unplaced

/-- Kind and text of the tokens that the statement is written with. -/
def faces : Stmt → List (TokenKind × String)
  | binding t name _ _ => [t.face, name.token.face, (.assign, "="), (.semicolon, ";")]
  | returning t _ _ => [t.face, (.semicolon, ";")]
  | expression _ value _ => value.elim [] Expr.faces

/-- What a rendering shows has the content that was rendered. -/
theorem content_of_reread {s s' : Stmt} (h : s'.unplaced = s.reread) : s'.content = s.content := by
  cases s with
  | expression t value span =>
    cases s' with
    | expression t' value' span' =>
      injection h with _ hvalue hspan
      show Stmt.expression _ _ _ = Stmt.expression _ _ _
      rw [hvalue]
      rfl
    | binding | returning => cases h
  | binding | returning =>
    cases s' with
    | expression => cases h
    | binding | returning => exact h

/-- Statements that are read back from their rendering have the content of those that were rendered.
-/
theorem map_content_of_reread {ss ss' : List Stmt} (h : ss'.map unplaced = ss.map reread) :
    ss'.map content = ss.map content := by
  induction ss generalizing ss' with
  | nil =>
    rw [List.map_eq_nil_iff.mp h]
  | cons s ss ih =>
    obtain ⟨s', ss', rfl, hs, hss⟩ := List.map_eq_cons_iff.mp h
    rw [List.map_cons, List.map_cons, content_of_reread hs, ih hss]

/-- **How the rendering of a statement starts**: with a byte that some statement goes on with exactly if
the two fuse. -/
theorem WellFormed.head_render {s : Stmt} (h : s.WellFormed) :
    ∃ b rest, bytes s.render = b :: rest ∧ (isWordByte b = true ∨ b = '('.toUInt8) ∧
      ∀ s₀ : Stmt, s₀.goesOn b = s₀.fuses s := by
  have hgoesOn : ∀ {b : UInt8}, isWordByte b = (s.isBareWord || s.isBareInteger || s.isRule) →
      isDigit b = s.isBareInteger → ∀ s₀ : Stmt, s₀.goesOn b = s₀.fuses s := by
    intro b hword hdigit s₀
    rw [goesOn, fuses, hword, hdigit]
  cases s with
  | binding t name value span =>
    obtain ⟨hface, -, -⟩ := h
    have htext : t.text = "let" := congrArg Prod.snd hface
    refine ⟨'l'.toUInt8, bytes ("et" ++ (" " ++ (name.name ++ (" = " ++ (value.elim "" Expr.render ++
      ";"))))), ?_, .inl rfl, hgoesOn rfl rfl⟩
    rw [render, htext]
    simp only [String.append_assoc]
    rw [bytes_append, bytes_append "et"]
    rfl
  | returning t value span =>
    obtain ⟨hface, -⟩ := h
    have htext : t.text = "return" := congrArg Prod.snd hface
    refine ⟨'r'.toUInt8, bytes ("eturn" ++ (" " ++ (value.elim "" Expr.render ++ ";"))), ?_, .inl rfl,
      hgoesOn rfl rfl⟩
    rw [render, htext]
    simp only [String.append_assoc]
    rw [bytes_append, bytes_append "eturn"]
    rfl
  | expression t value span =>
    obtain ⟨e, rfl, he⟩ := h
    obtain ⟨b, rest, hbytes, hb, hword, hdigit⟩ := he.head_render
    refine ⟨b, rest, hbytes, hb, hgoesOn ?_ hdigit⟩
    rw [hword]
    exact (Bool.or_false _).symm

end Stmt

/-! ### Scanning what is written -/

section scanning

variable {rest : List UInt8}

/-- The bytes of a binding without a value, with more behind it. -/
theorem bytes_render_binding {t : Token} {name : Identifier} {span : Span} (ht : t.text = "let") :
    bytes (Stmt.binding t name none span).render ++ rest =
      bytes "let" ++ ' '.toUInt8 :: (bytes name.name ++ ' '.toUInt8 :: (bytes "=" ++
        ' '.toUInt8 :: (bytes ";" ++ rest))) := by
  simp only [Stmt.render, ht, Option.elim_none, String.append_empty, bytes_append, List.append_assoc]
  rfl

/-- The bytes of a return without a value, with more behind it. -/
theorem bytes_render_returning {t : Token} {span : Span} (ht : t.text = "return") :
    bytes (Stmt.returning t none span).render ++ rest =
      bytes "return" ++ ' '.toUInt8 :: (bytes ";" ++ rest) := by
  simp only [Stmt.render, ht, Option.elim_none, String.append_empty, bytes_append, List.append_assoc]
  rfl

/-- A program without statements is the empty text. -/
theorem bytes_render_nil : bytes (Program.mk []).render = [] := rfl

/-- The text of a program is that of its statements, one right behind the other. -/
theorem bytes_render_cons (s : Stmt) (ss : List Stmt) :
    bytes (Program.mk (s :: ss)).render = bytes s.render ++ bytes (Program.mk ss).render := by
  rw [Program.render, List.map_cons, String.join_cons, bytes_append]
  rfl

/-- **Scanning the rendering of a statement gives the tokens that it is written with**, if what follows
does not go on with its last token. -/
theorem Stmt.WellFormed.lexemes_render {s : Stmt} (h : s.WellFormed)
    (hrest : ∀ b ∈ rest.head?, s.goesOn b = false) :
    (lexemes (bytes s.render ++ rest)).map Lexeme.face =
      s.faces ++ (lexemes rest).map Lexeme.face := by
  cases s with
  | binding t name value span =>
    obtain ⟨ht, ⟨hkind, htext, hword, hfree⟩, rfl⟩ := h
    have hlet : Spells .letWord "let" := .reserved (by decide)
    have hassign : Spells .assign "=" := @Spells.symbol .assign (by decide)
    have hname : name.token.face = (.identifier, name.name) := by rw [Token.face, hkind, htext]
    rw [bytes_render_binding (congrArg Prod.snd ht), hlet.lexemes_blank,
      (Spells.name hword hfree).lexemes_blank, hassign.lexemes_blank, lexemes_semicolon, faces, ht,
      hname]
    rfl
  | returning t value span =>
    obtain ⟨ht, rfl⟩ := h
    have hreturn : Spells .returnWord "return" := .reserved (by decide)
    rw [bytes_render_returning (congrArg Prod.snd ht), hreturn.lexemes_blank, lexemes_semicolon,
      faces, ht]
    rfl
  | expression t value span =>
    obtain ⟨e, rfl, he⟩ := h
    exact Prattle.lexemes_render he hrest

/-- A lexeme that starts with a byte of a word is a word or a number. -/
theorem Lexeme.kind_mem_of_isWordByte {b : UInt8} (hb : isWordByte b = true) (run : List UInt8) :
    Lexeme.kind (b :: run) ∈ .integer :: TokenKind.wordKinds := by
  rw [kind]
  rcases isWordByte_iff.mp hb with hletter | hdigit
  · rw [if_pos hletter]
    exact List.mem_cons_of_mem _ (TokenKind.ofWord_mem _)
  · rw [isLetter_eq_false_of_isDigit hdigit, if_neg Bool.false_ne_true, if_pos hdigit]
    exact List.mem_cons_self

/-- A lexeme that starts like a rendering goes on with no statement. -/
theorem endsStatement_of_starts {b : UInt8} (hb : isWordByte b = true ∨ b = '('.toUInt8)
    (rest : List UInt8) : Grammar.EndsStatement ((lexemes (b :: rest)).map Lexeme.face) := by
  have hends : ∀ kind ∈ .leftParen :: .integer :: TokenKind.wordKinds,
      BinaryOp.ofKind? kind = none ∧ kind ≠ .semicolon := by decide
  have hkind : Lexeme.kind (b :: Lexeme.tail b rest) ∈
      .leftParen :: .integer :: TokenKind.wordKinds := by
    rcases hb with hb | rfl
    · exact List.mem_cons_of_mem _ (Lexeme.kind_mem_of_isWordByte hb _)
    · exact List.mem_cons_self
  have hblank : isBlank b = false := by
    rcases hb with hb | rfl
    · exact isBlank_eq_false_of_isWordByte hb
    · rfl
  rw [lexemes_cons hblank]
  exact ⟨BinaryOp.kind_ne_of_ofKind?_eq_none (hends _ hkind).1, (hends _ hkind).2⟩

end scanning

/-! ### Leaves that grow -/

namespace Expr

variable {e : Expr} {b : UInt8} {rest : List UInt8}

/-- Only a leaf goes on. -/
theorem isLeaf_of_goesOn (hb : e.goesOn b = true) : (e.isWord || e.isInteger) = true := by
  cases e with
  | identifier | integer | boolean => rfl
  | unary | binary => cases hb

/-- A leaf is written as its token. -/
theorem WellFormed.face_render (he : e.WellFormed) (hleaf : (e.isWord || e.isInteger) = true) :
    Lexeme.face (bytes e.render) = e.token.face := by
  cases e with
  | identifier id =>
    have hleaf := he.isLeaf_identifier
    obtain ⟨hkind, htext, -, -⟩ := he
    exact hleaf.face.trans (Prod.ext hkind.symm htext.symm)
  | integer t v s => exact he.2.1.face.trans (Prod.ext he.1.symm rfl)
  | boolean t v s => exact he.isLeaf_boolean.face
  | unary | binary => cases hleaf

/-- **Where a leaf goes on, its lexeme grows.** -/
theorem WellFormed.lexemes_goesOn (he : e.WellFormed) (hb : e.goesOn b = true) :
    ∃ run more, lexemes (bytes e.render ++ b :: rest) = (bytes e.render ++ b :: run) :: more := by
  have hgrows : ∀ {p : UInt8 → Bool} {a : UInt8} {run : List UInt8}, isWordByte a = true →
      (∀ rest, Lexeme.tail a rest = rest.takeWhile p) → (∀ c ∈ run, p c = true) → p b = true →
      ∃ run' more, lexemes (a :: run ++ b :: rest) = (a :: run ++ b :: run') :: more := by
    intro p a run ha htail hrun hb
    refine ⟨rest.takeWhile p, lexemes (Lexeme.after a (run ++ b :: rest)), ?_⟩
    rw [List.cons_append, lexemes_cons (isBlank_eq_false_of_isWordByte ha), htail,
      List.takeWhile_append_of_pos hrun, List.takeWhile_cons_of_pos hb, List.cons_append]
  have hword : ∀ {s : String}, IsWord s → isWordByte b = true →
      ∃ run more, lexemes (bytes s ++ b :: rest) = (bytes s ++ b :: run) :: more := by
    intro s hs hb
    obtain ⟨-, a, run, hbytes, hletter, hrun⟩ := hs.exists_bytes
    rw [hbytes]
    exact hgrows (isWordByte_iff.mpr (.inl hletter)) (Lexeme.tail_word hletter) hrun hb
  cases e with
  | identifier id => exact hword he.2.2.1 (by simpa [goesOn, isWord, isInteger] using hb)
  | boolean t v s => exact hword he.isWord_boolean (by simpa [goesOn, isWord, isInteger] using hb)
  | integer t v s =>
    obtain ⟨-, a, run, hbytes, hdigit, hrun⟩ := he.2.1.exists_bytes
    rw [render, hbytes]
    exact hgrows (isWordByte_iff.mpr (.inr hdigit)) (Lexeme.tail_digits hdigit) hrun
      (by simpa [goesOn, isWord, isInteger] using hb)
  | unary | binary => cases hb

/-- **So the token that is scanned there is another one**, and no parenthesis. -/
theorem WellFormed.face_goesOn (he : e.WellFormed) (hb : e.goesOn b = true) :
    ∃ face more, (lexemes (bytes e.render ++ b :: rest)).map Lexeme.face = face :: more ∧
      face.1 ≠ .leftParen ∧ face ≠ e.token.face := by
  have hleaf := isLeaf_of_goesOn hb
  obtain ⟨run, more, hlexemes⟩ := @WellFormed.lexemes_goesOn e b rest he hb
  refine ⟨_, more.map Lexeme.face, by rw [hlexemes, List.map_cons], ?_, ?_⟩
  · obtain ⟨a, run', hbytes, -, hword, -⟩ := he.head_render
    have hkind : (Lexeme.face (bytes e.render ++ b :: run)).1 ∈ .integer :: TokenKind.wordKinds := by
      rw [hbytes]
      exact Lexeme.kind_mem_of_isWordByte (hword.trans hleaf) _
    have hnone : ∀ kind ∈ .integer :: TokenKind.wordKinds, kind ≠ .leftParen := by decide
    exact hnone _ hkind
  · rw [← he.face_render hleaf]
    intro hface
    have htext : Lexeme.text (bytes e.render ++ b :: run) = Lexeme.text (bytes e.render) :=
      congrArg Prod.snd hface
    have hlength := congrArg List.length (String.ofList_inj.mp htext)
    simp only [List.length_map, List.length_append, List.length_cons] at hlength
    omega

/-- A leaf keeps the token that it was read from. -/
theorem token_of_primary {t : Token} (h : t.primary = .ok e) : e.token = t := by
  rcases Token.primary_eq_ok h with ⟨v, -, -, rfl⟩ | ⟨-, rfl⟩ | ⟨-, rfl⟩ | ⟨-, rfl⟩
  all_goals rfl

/-- The tokens that a leaf is over start with a parenthesis or with the leaf. -/
theorem Covers.exists_head {ts : List Token} (h : e.Covers ts)
    (hleaf : (e.isWord || e.isInteger) = true) :
    ∃ t, ts.head? = some t ∧ (t.kind = .leftParen ∨ t = e.token) := by
  cases h with
  | leaf primary => exact ⟨_, rfl, .inr (token_of_primary primary).symm⟩
  | group left inner right => exact ⟨_, rfl, .inl left⟩
  | unary | binary => cases hleaf

/-- Moving an expression elsewhere leaves the face of its token. -/
theorem face_relocate {f : Position → Position} : (e.relocate f).token.face = e.token.face := by
  cases e <;> rfl

/-- Moving an expression elsewhere leaves a word a word and a number a number. -/
theorem isLeaf_relocate {f : Position → Position} :
    ((e.relocate f).isWord || (e.relocate f).isInteger) = (e.isWord || e.isInteger) := by
  cases e <;> rfl

end Expr

namespace Grammar

variable {c : Cursor} {rest : List (TokenKind × String)}

/-! ### Reading what does not go on -/

/-- **The tokens that a well-formed statement is written with are read as the statement.** -/
theorem gives_statement {s : Stmt} (h : s.WellFormed) (hc : c.Terminated)
    (hfaces : c.faces = s.faces ++ rest) (hrest : EndsStatement rest) :
    ∃ s' c', standard.statement c = ⟨some s', none, c'⟩ ∧ s'.unplaced = s.reread ∧
      c'.Terminated ∧ c'.advance.faces = rest := by
  cases s with
  | binding t name value span =>
    obtain ⟨ht, ⟨hkind, htext, -, -⟩, rfl⟩ := h
    have hcurrent : c.current.face = t.face := Cursor.current_of_faces hfaces
    have hfaces₁ := Cursor.faces_advance hfaces
    have hfaces₂ := Cursor.faces_advance hfaces₁
    have hfaces₃ := Cursor.faces_advance hfaces₂
    have hname : c.lookahead.face = name.token.face := by
      rw [← Cursor.current_advance]
      exact Cursor.current_of_faces hfaces₁
    have hrule : standard.statement? c.current.kind = some .binding := by
      have hlet : c.current.kind = .letWord := congrArg Prod.fst (hcurrent.trans ht)
      rw [hlet]
      rfl
    -- a rendered binding has its `;` right behind the `=`, so no value is skipped
    have hskip : c.advance.advance.skipToSemicolon = c.advance.advance.advance := by
      have hassign : c.advance.advance.current.kind = .assign :=
        congrArg Prod.fst (Cursor.current_of_faces hfaces₂)
      have hsemicolon : c.advance.advance.advance.current.kind = .semicolon :=
        congrArg Prod.fst (Cursor.current_of_faces hfaces₃)
      rw [Cursor.skipToSemicolon_of_ne (Cursor.atEnd_of_faces hfaces₂) (by rw [hassign]; decide),
        Cursor.skipToSemicolon_of_semicolon hsemicolon]
    have hread : ruleStatement .binding c = ⟨.ok _, _⟩ := Cursor.binding_eq_ok_iff.mpr
      ⟨(congrArg Prod.fst hname).trans hkind, Cursor.lookahead_of_faces hc.advance hfaces₂, rfl, rfl⟩
    rw [hskip] at hread
    refine ⟨_, _, statement_of_rule_ok hrule hread, ?_, hc.advance.advance.advance,
      Cursor.faces_advance hfaces₃⟩
    show Stmt.binding _ ⟨c.lookahead.relocate _, c.lookahead.text, _⟩ none _ =
      Stmt.binding _ ⟨name.token.relocate _, name.name, _⟩ none _
    have hspelled : c.lookahead.text = name.name := (congrArg Prod.snd hname).trans htext
    rw [Token.relocate_of_face hcurrent, Token.relocate_of_face hname, hspelled]
    rfl
  | returning t value span =>
    obtain ⟨ht, rfl⟩ := h
    have hcurrent : c.current.face = t.face := Cursor.current_of_faces hfaces
    have hfaces₁ := Cursor.faces_advance hfaces
    have hrule : standard.statement? c.current.kind = some .returning := by
      have hreturn : c.current.kind = .returnWord := congrArg Prod.fst (hcurrent.trans ht)
      rw [hreturn]
      rfl
    have hskip : c.advance.skipToSemicolon = c.advance :=
      Cursor.skipToSemicolon_of_semicolon (congrArg Prod.fst (Cursor.current_of_faces hfaces₁))
    have hread : ruleStatement .returning c = ⟨.ok _, c.advance.skipToSemicolon⟩ := rfl
    rw [hskip] at hread
    refine ⟨_, _, statement_of_rule_ok hrule hread, ?_, hc.advance, Cursor.faces_advance hfaces₁⟩
    show Stmt.returning _ none _ = Stmt.returning _ none _
    rw [Token.relocate_of_face hcurrent]
    rfl
  | expression t value span =>
    obtain ⟨e, rfl, he⟩ := h
    obtain ⟨e', c', hstatement, he', hc', hfaces'⟩ := gives_expressionStatement he hc hfaces hrest
    obtain ⟨more, hopening⟩ := e.exists_faces
    have hcurrent : c.current.face = e.opening.face := by
      have hwritten : c.faces = e.opening.face :: (more ++ rest) := by
        rw [← List.cons_append, ← hopening]
        exact hfaces
      exact Cursor.current_of_faces hwritten
    refine ⟨_, c', hstatement, ?_, hc', hfaces'⟩
    show Stmt.expression _ (some e'.unplaced) _ = Stmt.expression _ (some e.unplaced) _
    rw [he', Token.relocate_of_face hcurrent]
    rfl

/-! ### Reading what goes on -/

/-- **Where a statement goes on, it is not read back.** It is a leaf on its own, and what is read there
starts with another token. -/
theorem content_ne_of_goesOn {s : Stmt} {b : UInt8} {more : List UInt8} (h : s.WellFormed)
    (hb : s.goesOn b = true) (hc : c.Terminated)
    (hfaces : c.faces = (lexemes (bytes s.render ++ b :: more)).map Lexeme.face)
    (hnone : (standard.statement c).failure? = none) :
    ∃ s', (standard.statement c).value = some s' ∧ s'.content ≠ s.content := by
  cases s with
  | binding | returning => cases hb
  | expression t value span =>
    obtain ⟨e, rfl, he⟩ := h
    have hb : e.goesOn b = true := hb
    obtain ⟨face, rest, hscan, hparen, hface⟩ := he.face_goesOn hb
    have hwritten : c.faces = face :: rest := hfaces.trans hscan
    obtain ⟨run, hrun, htakes⟩ := takes_statement hc (Cursor.atEnd_of_faces hwritten)
    generalize (standard.statement c).cursor.advance.tokens = after at hrun htakes
    generalize standard.statement c = r at hnone htakes
    cases htakes with
    | binding | returning =>
      refine ⟨_, rfl, ?_⟩
      rintro ⟨⟩
    | broken | unnamed | unassigned => cases hnone
    | @expression first last ts stop rest e' c' covers passed starts ends =>
      refine ⟨_, rfl, fun hcontent => ?_⟩
      injection hcontent with _ hvalue _
      have he' : e'.unplaced = e.unplaced := Option.some.inj hvalue
      -- only a leaf is gone on with, and its first token is now another one
      have hleaf : (e'.isWord || e'.isInteger) = true := by
        rw [← Expr.isLeaf_relocate, ← Expr.isLeaf_of_goesOn hb, ← e.isLeaf_relocate]
        exact congrArg (fun e => e.isWord || e.isInteger) he'
      obtain ⟨t, hhead, ht⟩ := covers.exists_head hleaf
      have hcurrent : t.face = face := by
        rw [← Cursor.current_of_faces hwritten, Cursor.current, hrun, List.append_assoc,
          List.headD_eq_head?_getD, List.head?_append, hhead]
        rfl
      rcases ht with hkind | rfl
      · exact hparen ((congrArg Prod.fst hcurrent).symm.trans hkind)
      · apply hface
        rw [← hcurrent, ← e'.face_relocate, ← e.face_relocate]
        exact congrArg (fun e => e.token.face) he'

/-! ### Reading all statements -/

/-- The readings that follow a statement that nothing goes on with. -/
theorem statements_of_stmt {s : Stmt} {more : List UInt8} (h : s.WellFormed) (hc : c.Terminated)
    (hfaces : c.faces = (lexemes (bytes s.render ++ more)).map Lexeme.face)
    (hgoesOn : ∀ b ∈ more.head?, s.goesOn b = false)
    (hends : EndsStatement ((lexemes more).map Lexeme.face)) :
    ∃ s' c', standard.statements c = ⟨some s', none, c'⟩ :: standard.statements c'.advance ∧
      s'.unplaced = s.reread ∧ c'.Terminated ∧
      c'.advance.faces = (lexemes more).map Lexeme.face := by
  have hwritten : c.faces = s.faces ++ (lexemes more).map Lexeme.face :=
    hfaces.trans (h.lexemes_render hgoesOn)
  obtain ⟨s', c', hstatement, hs', hc', hmore⟩ := gives_statement h hc hwritten hends
  have hend : c.atEnd = false := by
    cases s with
    | binding | returning => exact Cursor.atEnd_of_faces hwritten
    | expression t value span =>
      obtain ⟨e, rfl, -⟩ := h
      exact Cursor.atEnd_of_expr hwritten
  refine ⟨s', c', ?_, hs', hc', hmore⟩
  rw [statements_of_not_atEnd hend, hstatement]

/-- What follows a statement in a program, if the two do not fuse. -/
theorem endsStatement_of_render {s : Stmt} {ss : List Stmt} (h : ∀ s ∈ ss, s.WellFormed)
    (hfuses : ∀ s' ∈ ss.head?, s.fuses s' = false) :
    (∀ b ∈ (bytes (Program.mk ss).render).head?, s.goesOn b = false) ∧
      EndsStatement ((lexemes (bytes (Program.mk ss).render)).map Lexeme.face) := by
  cases ss with
  | nil =>
    rw [bytes_render_nil, lexemes_nil]
    exact ⟨fun b hb => absurd hb (Option.not_mem_none b), endsStatement_nil⟩
  | cons s' ss =>
    obtain ⟨b, rest, hbytes, hb, hgoesOn⟩ := (h s' List.mem_cons_self).head_render
    rw [bytes_render_cons, hbytes, List.cons_append]
    refine ⟨?_, endsStatement_of_starts hb _⟩
    rintro _ ⟨⟩
    rw [hgoesOn]
    exact hfuses s' rfl

/-- **If no neighbours fuse, all statements are read back.** -/
theorem reread_of_isChain {ss : List Stmt} (h : ∀ s ∈ ss, s.WellFormed)
    (hchain : ss.IsChain fun s s' => s.fuses s' = false) (hc : c.Terminated)
    (hfaces : c.faces = (lexemes (bytes (Program.mk ss).render)).map Lexeme.face) :
    Reading.errors (standard.statements c) = [] ∧
      (Reading.values (standard.statements c)).map Stmt.unplaced = ss.map Stmt.reread := by
  induction ss generalizing c with
  | nil =>
    rw [bytes_render_nil, lexemes_nil] at hfaces
    rw [statements_of_atEnd (Cursor.atEnd_of_faces_nil hfaces)]
    exact ⟨rfl, rfl⟩
  | cons s ss ih =>
    obtain ⟨hs, hss⟩ := List.forall_mem_cons.mp h
    rw [List.isChain_cons] at hchain
    obtain ⟨hfuses, hchain⟩ := hchain
    obtain ⟨hgoesOn, hends⟩ := endsStatement_of_render hss hfuses
    rw [bytes_render_cons] at hfaces
    obtain ⟨s', c', hstatements, hs', hc', hmore⟩ :=
      statements_of_stmt hs hc hfaces hgoesOn hends
    obtain ⟨herrors, hvalues⟩ := ih hss hchain hc'.advance hmore
    rw [hstatements, Reading.errors_cons, Reading.values_cons, herrors]
    refine ⟨rfl, ?_⟩
    show s'.unplaced :: (Reading.values (standard.statements c'.advance)).map Stmt.unplaced = _
    rw [hs', hvalues, List.map_cons]

/-- **If neighbours fuse, some statement is not read back.** -/
theorem isChain_of_content {ss : List Stmt} (h : ∀ s ∈ ss, s.WellFormed) (hc : c.Terminated)
    (hfaces : c.faces = (lexemes (bytes (Program.mk ss).render)).map Lexeme.face)
    (herrors : Reading.errors (standard.statements c) = [])
    (hcontent : (Reading.values (standard.statements c)).map Stmt.content = ss.map Stmt.content) :
    ss.IsChain fun s s' => s.fuses s' = false := by
  induction ss generalizing c with
  | nil => exact .nil
  | cons s ss ih =>
    obtain ⟨hs, hss⟩ := List.forall_mem_cons.mp h
    rw [bytes_render_cons] at hfaces
    have hfuses : ∀ s' ∈ ss.head?, s.fuses s' = false := by
      intro s' hs'
      by_contra hfuses
      obtain ⟨ss', rfl⟩ := List.head?_eq_some_iff.mp hs'
      obtain ⟨b, rest, hbytes, -, hgoesOn⟩ := (hss s' List.mem_cons_self).head_render
      have hb : s.goesOn b = true := (hgoesOn s).trans (Bool.not_eq_false _ ▸ hfuses)
      rw [bytes_render_cons, hbytes, List.cons_append] at hfaces
      have hend : c.atEnd = false := by
        by_contra hend
        rw [statements_of_atEnd (Bool.not_eq_false _ ▸ hend)] at hcontent
        cases hcontent
      rw [statements_of_not_atEnd hend, Reading.errors_cons, List.append_eq_nil_iff] at herrors
      have hnone : (standard.statement c).failure? = none := by
        simpa [Option.toList_eq_nil_iff] using herrors.1
      obtain ⟨s₁, hvalue, hne⟩ := content_ne_of_goesOn hs hb hc hfaces hnone
      rw [statements_of_not_atEnd hend, Reading.values_cons, hvalue] at hcontent
      exact hne (List.cons.inj hcontent).1
    obtain ⟨hgoesOn, hends⟩ := endsStatement_of_render hss hfuses
    obtain ⟨s', c', hstatements, -, hc', hmore⟩ := statements_of_stmt hs hc hfaces hgoesOn hends
    rw [hstatements] at herrors hcontent
    exact List.isChain_cons.mpr ⟨hfuses, ih hss hc'.advance hmore herrors (List.cons.inj hcontent).2⟩

end Grammar

/-- **What was parsed can be read back from its rendering iff no neighbours fuse.** The statements that are
read there are then those of the program, up to positions and with the first tokens that the rendering
shows. -/
theorem parse_render_program_iff (text : String) (file file' : Option String)
    (h : (parse text file).2 = []) :
    ((parse (parse text file).1.render file').2 = [] ∧
        (parse (parse text file).1.render file').1.statements.map Stmt.content =
          (parse text file).1.statements.map Stmt.content ↔
      (parse text file).1.statements.IsChain fun s s' => s.fuses s' = false) ∧
    (((parse text file).1.statements.IsChain fun s s' => s.fuses s' = false) →
      (parse (parse text file).1.render file').1.statements.map Stmt.unplaced =
        (parse text file).1.statements.map Stmt.reread) := by
  have hwf := wellFormed_of_parse h
  generalize (parse text file).1 = p at hwf ⊢
  have hc := Cursor.terminated_ofText p.render file'
  have hfaces := Cursor.faces_ofText p.render file'
  have hreread : (p.statements.IsChain fun s s' => s.fuses s' = false) →
      (parse p.render file').2 = [] ∧
        (parse p.render file').1.statements.map Stmt.unplaced = p.statements.map Stmt.reread := by
    rw [parse_eq]
    exact fun hchain => Grammar.reread_of_isChain hwf hchain hc hfaces
  refine ⟨⟨?_, fun hchain => ?_⟩, fun hchain => (hreread hchain).2⟩
  · rw [parse_eq]
    rintro ⟨herrors, hcontent⟩
    exact Grammar.isChain_of_content hwf hc hfaces herrors hcontent
  · obtain ⟨herrors, hstatements⟩ := hreread hchain
    exact ⟨herrors, Stmt.map_content_of_reread hstatements⟩

/-- A name in front of an operation, a binding in front of a number and a number in front of a name. -/
theorem parse_render_program_mixed :
    (parse "a; !b * (2) let x = 1; 3 c" none).2 = [] ∧
    (parse "a; !b * (2) let x = 1; 3 c" none).1.render = "a((!b) * 2)let x = ;3c" ∧
    (parse "a((!b) * 2)let x = ;3c" none).2 = [] ∧
    (parse "a((!b) * 2)let x = ;3c" none).1.statements.map Stmt.content =
      (parse "a; !b * (2) let x = 1; 3 c" none).1.statements.map Stmt.content := by
  have herrors : (parse "a; !b * (2) let x = 1; 3 c" none).2 = [] := by decide
  have hrender : (parse "a; !b * (2) let x = 1; 3 c" none).1.render = "a((!b) * 2)let x = ;3c" := by
    decide
  have hchain : (parse "a; !b * (2) let x = 1; 3 c" none).1.statements.IsChain
      fun s s' => s.fuses s' = false := by decide
  have hread := (parse_render_program_iff "a; !b * (2) let x = 1; 3 c" none none herrors).1.mpr hchain
  rw [hrender] at hread
  exact ⟨herrors, hrender, hread⟩

/-- The first token of an expression statement may be another one in the rendering. Here no neighbours
fuse, and still the statements differ in more than their places. -/
theorem parse_render_program_first_token :
    (parse "a + b" none).2 = [] ∧
    ¬((parse (parse "a + b" none).1.render none).2 = [] ∧
        (parse (parse "a + b" none).1.render none).1.statements.map Stmt.unplaced =
          (parse "a + b" none).1.statements.map Stmt.unplaced ↔
      (parse "a + b" none).1.statements.IsChain fun s s' => s.fuses s' = false) := by
  decide

end Prattle
