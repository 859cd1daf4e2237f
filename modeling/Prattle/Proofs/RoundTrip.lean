import Prattle.Proofs.Climbing
import Prattle.Proofs.Rendering

/-!
# Parsing undoes rendering

* **Reading the tokens that an expression is written with gives the expression**, up to positions,
  and ends on the last of them (`gives_operand`). Every operation is written between parentheses, so
  it is one operand whatever surrounds it.
* **Parsing a rendering gives the expression and no error** (`parse_render`), so a well-formed
  expression is determined by its rendering, and rendering what was parsed gives the rendering again.
-/

namespace Prattle

/-! ### Cursors by the faces of their tokens -/

namespace Cursor

/-- Kind and text of the tokens from the current one on. -/
def faces (c : Cursor) : List (TokenKind × String) :=
  c.tokens.map Token.face

variable {c : Cursor} {face : TokenKind × String} {rest : List (TokenKind × String)}

/-- Where there is a face, it is not the end. -/
theorem atEnd_of_faces (h : c.faces = face :: rest) : c.atEnd = false := by
  obtain ⟨_ | ⟨t, ts⟩, eof, i⟩ := c
  · cases h
  · rfl

/-- Where there is no face, it is the end. -/
theorem atEnd_of_faces_nil (h : c.faces = []) : c.atEnd = true := by
  have hnil : c.tokens = [] := List.map_eq_nil_iff.mp h
  rw [atEnd, hnil]
  rfl

/-- The face of the current token is the first one. -/
theorem current_of_faces (h : c.faces = face :: rest) : c.current.face = face := by
  obtain ⟨_ | ⟨t, ts⟩, eof, i⟩ := c
  · cases h
  · exact (List.cons.inj h).1

/-- A step leaves the faces behind the first one. -/
theorem faces_advance (h : c.faces = face :: rest) : c.advance.faces = rest := by
  obtain ⟨_ | ⟨t, ts⟩, eof, i⟩ := c
  · cases h
  · exact (List.cons.inj h).2

/-- The kind of the first token, that of the end if there is none. -/
def firstKind (faces : List (TokenKind × String)) : TokenKind :=
  (faces.head?.map Prod.fst).getD .endOfInput

/-- The kind of the token ahead is that of the first face that a step leaves. -/
theorem lookahead_of_faces (hc : c.Terminated) (h : c.advance.faces = rest) :
    c.lookahead.kind = firstKind rest := by
  rw [← current_advance]
  rcases rest with _ | ⟨face, rest⟩
  · exact hc.advance.atEnd_iff.mp (atEnd_of_faces_nil h)
  · exact congrArg Prod.fst (current_of_faces h)

/-- An expression is written with at least one token. -/
theorem atEnd_of_expr {e : Expr} (h : c.faces = e.faces ++ rest) : c.atEnd = false := by
  cases e <;> exact atEnd_of_faces h

/-- The faces of a text are those of its lexemes. -/
theorem faces_ofText (text : String) (file : Option String) :
    (ofText text file).faces = (lexemes (bytes text)).map Lexeme.face :=
  Scanner.map_face_tokens _

end Cursor

/-! ### Reading the tokens of an expression -/

/-- The reading gave the expression up to positions, and `rest` is what follows its last token. -/
def Outcome.Gives (r : Outcome Expr) (e : Expr) (rest : List (TokenKind × String)) : Prop :=
  ∃ e' c', r = ⟨.ok e', c'⟩ ∧ e'.unplaced = e.unplaced ∧ c'.Terminated ∧ c'.advance.faces = rest

namespace Grammar

variable {c : Cursor} {e : Expr} {rest : List (TokenKind × String)}

/-- An operand with no operator behind it is an expression, whatever the power. -/
theorem gives_expression (bp : BindingPower) (hend : c.atEnd = false)
    (hoperand : (standard.operand standard.expression c).Gives e rest)
    (hrest : ∀ op : BinaryOp, op.kind ≠ Cursor.firstKind rest) :
    (standard.expression bp c).Gives e rest := by
  obtain ⟨e', c', hread, he', hc', hfaces⟩ := hoperand
  refine ⟨e', c', ?_, he', hc', hfaces⟩
  have hstop : standard.operatorAhead? bp c' = none := by
    rw [standard_operatorAhead?_eq_none_iff hc']
    intro op hkind
    rw [Cursor.lookahead_of_faces hc' hfaces] at hkind
    exact absurd hkind (hrest op)
  rw [expression_of_not_atEnd hend, hread, Outcome.andThen_ok, climb_of_none hstop]

/-- A token that is the expression on its own is an operand. -/
theorem gives_leaf (e' : Expr) {face : TokenKind × String} (hc : c.Terminated)
    (hfaces : c.faces = face :: rest)
    (hrule : standard.operand? c.current.kind = some .primary)
    (hprimary : c.current.primary = .ok e') (he' : e'.unplaced = e.unplaced) :
    (standard.operand standard.expression c).Gives e rest := by
  refine ⟨e', c, ?_, he', hc, Cursor.faces_advance hfaces⟩
  rw [operand, hrule, primary, hprimary]

/-- A unary operator with its operand is an expression, if no operator follows. -/
theorem gives_unary {t : Token} {op : UnaryOp} {s : Span} (hend : c.atEnd = false)
    (hface : c.current.face = t.face) (hkind : t.kind = op.kind)
    (harg : (standard.expression .unary c.advance).Gives e rest)
    (hrest : ∀ op : BinaryOp, op.kind ≠ Cursor.firstKind rest) :
    (standard.expression .lowest c).Gives (.unary t op e s) rest := by
  obtain ⟨e', c', hread, he', hc', hfaces⟩ := harg
  let read := Expr.unary c.current op e' (c.current.span.upTo e'.span)
  refine gives_expression .lowest hend ⟨read, c', ?_, ?_, hc', hfaces⟩ hrest
  · have hop : UnaryOp.ofKind? c.current.kind = some op :=
      UnaryOp.ofKind?_eq_some_iff.mpr (hkind.symm.trans (congrArg Prod.fst hface).symm)
    have hrule : standard.operand? c.current.kind = some .prefixed := by
      rw [← UnaryOp.ofKind?_eq_some_iff.mp hop]
      cases op <;> rfl
    rw [operand, hrule]
    show prefixed standard.expression c = _
    rw [prefixed, hop, hread]
    rfl
  · show Expr.unary _ op e'.unplaced _ = Expr.unary _ op e.unplaced _
    rw [he', Token.relocate_of_face hface]
    rfl

/-- An operand, an operator and its right operand are an expression, if no operator follows. -/
theorem gives_binary {l r : Expr} {t : Token} {op : BinaryOp} {s : Span}
    {rest₁ : List (TokenKind × String)} (hend : c.atEnd = false) (hkind : t.kind = op.kind)
    (hl : (standard.operand standard.expression c).Gives l (t.face :: rest₁))
    (hr : ∀ c₁ : Cursor, c₁.Terminated → c₁.faces = rest₁ →
      (standard.expression op.power c₁).Gives r rest)
    (hrest : ∀ op : BinaryOp, op.kind ≠ Cursor.firstKind rest) :
    (standard.expression .lowest c).Gives (.binary t op l r s) rest := by
  obtain ⟨l', c₁, hreadl, hl', hc₁, hfaces₁⟩ := hl
  obtain ⟨r', c₂, hreadr, hr', hc₂, hfaces₂⟩ :=
    hr c₁.advance.advance hc₁.advance.advance (Cursor.faces_advance hfaces₁)
  have hface : c₁.advance.current.face = t.face := Cursor.current_of_faces hfaces₁
  have hkind₁ : c₁.advance.current.kind = op.kind := (congrArg Prod.fst hface).trans hkind
  have hahead : standard.operatorAhead? .lowest c₁ = some op := by
    rw [standard_operatorAhead?_eq_some_iff hc₁, ← Cursor.current_advance]
    refine ⟨hkind₁.symm, ?_⟩
    cases op <;> decide
  have hstop : standard.operatorAhead? .lowest c₂ = none := by
    rw [standard_operatorAhead?_eq_none_iff hc₂]
    intro op hop
    rw [Cursor.lookahead_of_faces hc₂ hfaces₂] at hop
    exact absurd hop (hrest op)
  let read := Expr.binary c₁.advance.current op l' r' (l'.span.upTo r'.span)
  refine ⟨read, c₂, ?_, ?_, hc₂, hfaces₂⟩
  · rw [expression_of_not_atEnd hend, hreadl, Outcome.andThen_ok, climb_of_some hahead, operation,
      hkind₁, standard_power_kind, hreadr, Outcome.andThen_ok, Outcome.andThen_ok,
      climb_of_none hstop]
  · show Expr.binary _ op l'.unplaced r'.unplaced _ = Expr.binary _ op l.unplaced r.unplaced _
    rw [hl', hr', Token.relocate_of_face hface]
    rfl

/-- An expression between parentheses is an operand. -/
theorem gives_group (hopen : c.current.kind = .leftParen)
    (hinner : (standard.expression .lowest c.advance).Gives e ((.rightParen, ")") :: rest)) :
    (standard.operand standard.expression c).Gives e rest := by
  obtain ⟨e', c', hread, he', hc', hfaces⟩ := hinner
  have hclose : c'.lookahead.kind = .rightParen := Cursor.lookahead_of_faces hc' hfaces
  refine ⟨e', c'.advance, ?_, he', hc'.advance, Cursor.faces_advance hfaces⟩
  rw [standard_operand, hopen]
  show grouped standard.expression c = _
  rw [grouped, hread, Outcome.andThen_ok, Cursor.expect_eq_ok_iff.mpr ⟨hclose, rfl⟩]

/-- **The tokens that a well-formed expression is written with are read as the expression**,
whatever follows them. -/
theorem gives_operand (he : e.WellFormed) (hc : c.Terminated) (hfaces : c.faces = e.faces ++ rest) :
    (standard.operand standard.expression c).Gives e rest := by
  induction e generalizing c rest with
  | identifier id =>
    obtain ⟨hkind, htext, -, -⟩ := he
    have hface : c.current.face = id.token.face := Cursor.current_of_faces hfaces
    obtain ⟨hkind', htext'⟩ := Prod.mk.inj hface
    apply gives_leaf (.identifier (.ofToken c.current)) hc hfaces
    · rw [hkind', hkind]
      rfl
    · rw [Token.primary, hkind', hkind]
    · show Expr.identifier ⟨c.current.relocate _, c.current.text, _⟩ = Expr.identifier ⟨_, id.name, _⟩
      rw [Token.relocate_of_face hface, htext', htext]
      rfl
  | integer t v s =>
    obtain ⟨hkind, -, hvalue⟩ := he
    have hface : c.current.face = t.face := Cursor.current_of_faces hfaces
    obtain ⟨hkind', htext'⟩ := Prod.mk.inj hface
    apply gives_leaf (.integer c.current v c.current.span) hc hfaces
    · rw [hkind', hkind]
      rfl
    · have hspelled : Numeral.value? c.current.text = some v := by rw [htext', hvalue]
      rw [Token.primary, hkind', hkind]
      dsimp only
      rw [hspelled]
    · show Expr.integer _ v _ = Expr.integer _ v _
      rw [Token.relocate_of_face hface]
      rfl
  | boolean t v s =>
    have hface : c.current.face = t.face := Cursor.current_of_faces hfaces
    have hkind : c.current.kind = if v then .trueWord else .falseWord := by
      have hfst := congrArg Prod.fst (hface.trans he)
      cases v <;> exact hfst
    apply gives_leaf (.boolean c.current v c.current.span) hc hfaces
    · rw [hkind]
      cases v <;> rfl
    · rw [Token.primary, hkind]
      cases v <;> rfl
    · show Expr.boolean _ v _ = Expr.boolean _ v _
      rw [Token.relocate_of_face hface]
      rfl
  | unary t op arg s ih =>
    obtain ⟨hop, harg⟩ := he
    simp only [Expr.faces, List.append_assoc, List.cons_append] at hfaces
    have hopen : c.current.kind = .leftParen :=
      congrArg Prod.fst (Cursor.current_of_faces hfaces)
    have hfaces₁ := Cursor.faces_advance hfaces
    have hfaces₂ := Cursor.faces_advance hfaces₁
    have hend₂ : c.advance.advance.atEnd = false := Cursor.atEnd_of_expr hfaces₂
    -- the rendering puts every operator expression in parentheses, so it is read as a group
    refine gives_group hopen (gives_unary (Cursor.atEnd_of_faces hfaces₁)
      (Cursor.current_of_faces hfaces₁) (congrArg Prod.fst hop) ?_ (BinaryOp.kind_ne_of_ofKind?_eq_none rfl))
    exact gives_expression .unary hend₂ (ih harg hc.advance.advance hfaces₂) (BinaryOp.kind_ne_of_ofKind?_eq_none rfl)
  | binary t op l r s ihl ihr =>
    obtain ⟨hop, hl, hr⟩ := he
    simp only [Expr.faces, List.append_assoc, List.cons_append] at hfaces
    have hopen : c.current.kind = .leftParen :=
      congrArg Prod.fst (Cursor.current_of_faces hfaces)
    have hfaces₁ := Cursor.faces_advance hfaces
    refine gives_group hopen (gives_binary (Cursor.atEnd_of_expr hfaces₁)
      (congrArg Prod.fst hop) (ihl hl hc.advance hfaces₁) ?_ (BinaryOp.kind_ne_of_ofKind?_eq_none rfl))
    intro c₁ hc₁ hfaces₂
    exact gives_expression op.power (Cursor.atEnd_of_expr hfaces₂) (ihr hr hc₁ hfaces₂)
      (BinaryOp.kind_ne_of_ofKind?_eq_none rfl)

/-! ### Reading a text that is one expression -/

/-- No statement with a rule of its own starts like an expression. -/
theorem statement?_of_gives (h : (standard.operand standard.expression c).Gives e rest) :
    standard.statement? c.current.kind = none := by
  obtain ⟨e', c', hread, -⟩ := h
  rw [standard_operand] at hread
  cases hkind : c.current.kind
  case letWord | returnWord =>
    rw [hkind] at hread
    cases hread
  all_goals rfl

/-- What follows goes on with no expression statement: it starts with neither an operator nor a `;`. -/
def EndsStatement (rest : List (TokenKind × String)) : Prop :=
  (∀ op : BinaryOp, op.kind ≠ Cursor.firstKind rest) ∧ Cursor.firstKind rest ≠ .semicolon

/-- A statement ends where the text does. -/
theorem endsStatement_nil : EndsStatement [] :=
  ⟨BinaryOp.kind_ne_of_ofKind?_eq_none rfl, by decide⟩

/-- **The tokens that a well-formed expression is written with are read as a statement**, if nothing goes
on with it. -/
theorem gives_expressionStatement (he : e.WellFormed) (hc : c.Terminated)
    (hfaces : c.faces = e.faces ++ rest) (hrest : EndsStatement rest) :
    ∃ e' c', standard.statement c = ⟨some (.expression c.current (some e')
        (c.current.span.upTo c'.current.span)), none, c'⟩ ∧
      e'.unplaced = e.unplaced ∧ c'.Terminated ∧ c'.advance.faces = rest := by
  have hoperand := gives_operand he hc hfaces
  obtain ⟨e', c', hread, he', hc', hfaces'⟩ :=
    gives_expression .lowest (Cursor.atEnd_of_expr hfaces) hoperand hrest.1
  have hpass : c'.passSemicolon = c' := by
    apply Cursor.passSemicolon_of_ne
    rw [Cursor.lookahead_of_faces hc' hfaces']
    exact hrest.2
  refine ⟨e', c', ?_, he', hc', hfaces'⟩
  rw [statement_of_expression_ok (statement?_of_gives hoperand) hread, hpass]

/-- **A text that is written as an expression is read as one statement**, and nothing is left. -/
theorem statements_of_expr (he : e.WellFormed) (hc : c.Terminated) (hfaces : c.faces = e.faces) :
    ∃ t e' s c', e'.unplaced = e.unplaced ∧
      standard.statements c = [⟨some (.expression t (some e') s), none, c'⟩] := by
  have hfaces' : c.faces = e.faces ++ [] := by rw [hfaces, List.append_nil]
  obtain ⟨e', c', hstatement, he', hc', hrest⟩ :=
    gives_expressionStatement he hc hfaces' endsStatement_nil
  refine ⟨c.current, e', c.current.span.upTo c'.current.span, c', he', ?_⟩
  rw [statements_of_not_atEnd (Cursor.atEnd_of_expr hfaces'), hstatement,
    statements_of_atEnd (Cursor.atEnd_of_faces_nil hrest)]

end Grammar

/-- **Parsing undoes rendering.** A well-formed expression is what its rendering is read as, without
an error and up to positions. So it is determined by its rendering, and what was parsed renders as it
was written. -/
theorem parse_render {e : Expr} (he : e.WellFormed) (file : Option String) :
    (∃ t e' s, parse e.render file = (⟨[.expression t (some e') s]⟩, []) ∧
      e'.unplaced = e.unplaced) ∧
    (∀ e₂ : Expr, e₂.WellFormed → e₂.render = e.render → e₂.unplaced = e.unplaced) ∧
    (parse e.render file).1.render = e.render := by
  have hread : ∀ e : Expr, e.WellFormed → ∃ t e' s,
      parse e.render file = (⟨[.expression t (some e') s]⟩, []) ∧ e'.unplaced = e.unplaced := by
    intro e he
    have hfaces : (Cursor.ofText e.render file).faces = e.faces := by
      have hscan := @lexemes_render e he [] (by simp)
      rwa [List.append_nil, lexemes_nil, List.map_nil, List.append_nil, ← Cursor.faces_ofText _ file]
        at hscan
    obtain ⟨t, e', s, c', he', hstatements⟩ :=
      Grammar.statements_of_expr he (Cursor.terminated_ofText e.render file) hfaces
    refine ⟨t, e', s, ?_, he'⟩
    rw [parse_eq, hstatements]
    rfl
  obtain ⟨t, e', s, hparse, he'⟩ := hread e he
  refine ⟨⟨t, e', s, hparse, he'⟩, ?_, ?_⟩
  · intro e₂ he₂ hrender
    obtain ⟨t₂, e₂', s₂, hparse₂, he₂'⟩ := hread e₂ he₂
    rw [hrender, hparse] at hparse₂
    have hstatement : [Stmt.expression t (some e') s] = [Stmt.expression t₂ (some e₂') s₂] :=
      congrArg (fun r => r.1.statements) hparse₂
    injection hstatement with hstatement
    injection hstatement with _ hexpr
    rw [← he₂', ← he', Option.some.inj hexpr]
  · calc (parse e.render file).1.render
        = e'.render := by rw [hparse]; exact String.empty_append
      _ = e'.unplaced.render := (Expr.render_relocate e').symm
      _ = e.unplaced.render := by rw [he']
      _ = e.render := Expr.render_relocate e

/-- An expression with a node of every kind. -/
def Expr.specimen : Expr :=
  let tokenOf (kind : TokenKind) (text : String) : Token := ⟨kind, text, .ofRange "specimen" 7 9⟩
  let span : Span := .ofRange "specimen" 1 2
  .binary (tokenOf .equal "==") .equal
    (.unary (tokenOf .minus "-") .negate
      (.identifier ⟨tokenOf .identifier "a_1", "a_1", span⟩) span)
    (.binary (tokenOf .star "*") .multiply
      (.integer (tokenOf .integer "017") 15 span)
      (.unary (tokenOf .bang "!") .not (.boolean (tokenOf .trueWord "true") true span) span) span)
    span

/-- A tree with every kind of node, rendered and read back. -/
theorem parse_render_specimen :
    Expr.specimen.WellFormed ∧ Expr.specimen.render = "((-a_1) == (017 * (!true)))" ∧
      ∃ t e' s, parse "((-a_1) == (017 * (!true)))" none = (⟨[.expression t (some e') s]⟩, []) ∧
        e'.unplaced = Expr.specimen.unplaced := by
  have hname : IsWord "a_1" := ⟨'a', ['_', '1'], rfl, by decide, by simp [Char.isAlphanum]⟩
  have hnumber : IsNumber "017" := ⟨by decide, List.all_eq_true.mp rfl⟩
  have hvalue : Numeral.value? "017" = some 15 := by decide
  have hwf : Expr.specimen.WellFormed :=
    ⟨rfl, ⟨rfl, rfl, rfl, hname, by decide⟩, rfl, ⟨rfl, hnumber, hvalue⟩, rfl, rfl⟩
  have hrender : Expr.specimen.render = "((-a_1) == (017 * (!true)))" := by decide
  exact ⟨hwf, hrender, hrender ▸ (parse_render hwf none).1⟩

end Prattle
