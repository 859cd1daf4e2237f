import Prattle.Proofs.Acceptance
import Prattle.Proofs.Cutting

/-!
# What was read before an error can be completed

`Syntax.Viable P ts` says that the tokens `ts` can be gone on with to something of `P`, by tokens that
can be spelled. `Grammar.StopsAt P c last err` says that a reading from `c` failed at the token under
`last`: the error is blamed on that token, and what stands in front of it is viable.

* **An expression that fails stops at a token** (`stopsAt_of_expression`). What is missing is an operand,
  and a `)` for every group that is still open.
* **A statement that fails stops at a token** (`stopsAt_of_statement`).
* **A text that spells the missing tokens goes on with them** (`exists_tokens_append_spelling`).
-/

namespace Prattle

namespace Syntax

/-! ### Viable lists of tokens -/

/-- The tokens can be gone on with to something of `P`. The tokens that are missing are given by their
kinds and texts, and wherever they stand they will do. -/
def Viable (P : List Token → Prop) (ts : List Token) : Prop :=
  ∃ faces : List (TokenKind × String), (∀ face ∈ faces, Spells face.1 face.2) ∧
    ∀ more : List Token, more.map Token.face = faces → P (ts ++ more)

variable {P Q : List Token → Prop} {ts : List Token}

/-- What is viable can be gone on with. -/
theorem Viable.exists_append (h : Viable P ts) : ∃ more, P (ts ++ more) := by
  obtain ⟨faces, -, hmore⟩ := h
  refine ⟨faces.map fun face => ⟨face.1, face.2, default⟩, hmore _ ?_⟩
  rw [List.map_map]
  exact List.map_id _

/-- What can be completed in one place can be completed in another that takes the same completion. -/
theorem Viable.imp {us : List Token} (h : Viable P ts) (hPQ : ∀ more, P (ts ++ more) → Q (us ++ more)) :
    Viable Q us := by
  obtain ⟨faces, hspells, hmore⟩ := h
  exact ⟨faces, hspells, fun more hfaces => hPQ more (hmore more hfaces)⟩

/-- The letter x spells an identifier. -/
theorem spells_x : Spells .identifier "x" :=
  .name ⟨'x', [], rfl, by decide, fun d hd => absurd hd List.not_mem_nil⟩ (by decide)

/-- Where an operand is missing, any name will do. -/
theorem viable_operand : Viable (Derives .unary) [] := by
  refine ⟨[(.identifier, "x")], by simpa using spells_x, ?_⟩
  intro more hmore
  obtain ⟨t, rfl, hface⟩ := List.map_eq_singleton_iff.mp hmore
  exact .ofAtom (.name (congrArg Prod.fst hface))

/-- An open group takes an expression and a `)`. -/
theorem Viable.group {l : Token} (left : l.kind = .leftParen) (h : Viable (Derives .expression) ts) :
    Viable (Derives .unary) (l :: ts) := by
  obtain ⟨faces, hspells, hmore⟩ := h
  refine ⟨faces ++ [(.rightParen, ")")], ?_, ?_⟩
  · rw [List.forall_mem_append]
    refine ⟨hspells, ?_⟩
    rintro face hface
    rw [List.mem_singleton.mp hface]
    exact @Spells.symbol .rightParen (by decide)
  · intro more hfaces
    obtain ⟨us, closing, rfl, hus, hclosing⟩ := List.map_eq_append_iff.mp hfaces
    obtain ⟨r, rfl, hface⟩ := List.map_eq_singleton_iff.mp hclosing
    have hgroup := Derives.group left (hmore us hus) (congrArg Prod.fst hface)
    rw [List.cons_append, List.append_assoc] at hgroup
    exact .ofAtom hgroup

/-- **No illegal token is part of an expression.** -/
theorem Derives.kind_ne_illegal {category : Category} (h : Derives category ts) :
    ∀ t ∈ ts, t.kind ≠ .illegal := by
  have hone : ∀ {t : Token} {kind : TokenKind}, t.kind = kind → kind ≠ .illegal →
      ∀ u ∈ [t], u.kind ≠ .illegal := by
    intro t kind hkind hne u hu
    rw [List.mem_singleton.mp hu, hkind]
    exact hne
  induction h with
  | name kind => exact hone kind (by decide)
  | number kind value => exact hone kind (by decide)
  | truth kind =>
    rcases kind with kind | kind
    · exact hone kind (by decide)
    · exact hone kind (by decide)
  | group left inner right ih =>
    exact List.forall_mem_append.mpr
      ⟨List.forall_mem_cons.mpr ⟨by rw [left]; decide, ih⟩, hone right (by decide)⟩
  | ofAtom atom ih => exact ih
  | @unary t ts kind operand ih =>
    refine List.forall_mem_cons.mpr ⟨?_, ih⟩
    intro hillegal
    exact absurd (hillegal ▸ kind) (by decide)
  | ofUnary unary ih => exact ih
  | @binary t ls rs left kind right ihl ihr =>
    refine List.forall_mem_append.mpr ⟨ihl, List.forall_mem_cons.mpr ⟨?_, ihr⟩⟩
    intro hillegal
    exact absurd (hillegal ▸ kind) (by decide)

/-- No illegal token is part of what can be gone on with to an expression. -/
theorem Viable.kind_ne_illegal {category : Category} (h : Viable (Derives category) ts) :
    ∀ t ∈ ts, t.kind ≠ .illegal := by
  obtain ⟨more, hderives⟩ := h.exists_append
  exact (List.forall_mem_append.mp hderives.kind_ne_illegal).1

/-! ### Statements in front of more -/

variable {rest : List Token}

/-- **A statement that something follows is a statement whatever follows it.** -/
theorem IsStmt.of_ne_nil (h : IsStmt ts rest) (hne : rest ≠ []) (rest' : List Token) :
    IsStmt ts rest' := by
  have hend : ∀ {stop : List Token}, IsEnd stop rest → IsEnd stop rest' := by
    intro stop hstop
    cases hstop with
    | semicolon kind => exact .semicolon kind
    | endOfInput => exact absurd rfl hne
  cases h with
  | binding kind isName isAssign skipped isEnd =>
    exact .binding kind isName isAssign skipped (hend isEnd)
  | returning kind skipped isEnd => exact .returning kind skipped (hend isEnd)
  | expression isExpr => exact .expression isExpr
  | terminated isExpr kind => exact .terminated isExpr kind

/-- What ends in front of something does not end with an illegal token. -/
theorem IsEnd.getLast?_ne_illegal {us stop : List Token} (h : IsEnd stop rest) (hne : rest ≠ []) :
    ∀ t ∈ (us ++ stop).getLast?, t.kind ≠ .illegal := by
  cases h with
  | semicolon kind =>
    rw [List.getLast?_concat]
    rintro t ⟨⟩
    rw [kind]
    decide
  | endOfInput => exact absurd rfl hne

/-- **A statement that something follows does not end with an illegal token.** -/
theorem IsStmt.getLast?_ne_illegal (h : IsStmt ts rest) (hne : rest ≠ []) :
    ∀ t ∈ ts.getLast?, t.kind ≠ .illegal := by
  cases h with
  | binding kind isName isAssign skipped isEnd => exact isEnd.getLast?_ne_illegal hne
  | returning kind skipped isEnd => exact isEnd.getLast?_ne_illegal hne
  | expression isExpr => exact fun t ht => isExpr.kind_ne_illegal t (List.mem_of_getLast? ht)
  | terminated isExpr kind => exact (@IsEnd.semicolon _ rest kind).getLast?_ne_illegal hne

end Syntax

open Syntax

namespace Grammar

/-! ### Expressions that fail -/

/-- A reading from `c` failed at the token under `last`: the error is blamed on it, and what stands in
front of it can be gone on with to something of `P`. -/
def StopsAt (P : List Token → Prop) (c last : Cursor) (err : SyntaxError) : Prop :=
  err.position = last.current.span.start ∧ ∃ ts, c.tokens = ts ++ last.tokens ∧ Viable P ts

variable {P Q : List Token → Prop} {c c' last : Cursor} {err : SyntaxError}

/-- What stops in front of one thing stops in front of every more general one. -/
theorem StopsAt.imp (h : StopsAt P c last err) (hPQ : ∀ ts, P ts → Q ts) : StopsAt Q c last err := by
  obtain ⟨hposition, ts, hts, hviable⟩ := h
  exact ⟨hposition, ts, hts, hviable.imp fun more => hPQ _⟩

/-- What fails behind the current token fails with that token in front. -/
theorem StopsAt.of_advance (h : StopsAt P c.advance last err) (hend : c.atEnd = false)
    (hPQ : ∀ ts, Viable P ts → Viable Q (c.current :: ts)) : StopsAt Q c last err := by
  obtain ⟨hposition, ts, hts, hviable⟩ := h
  refine ⟨hposition, c.current :: ts, ?_, hPQ ts hviable⟩
  rw [Cursor.tokens_of_not_atEnd hend, hts, List.cons_append]

/-- Every expression that fails where fewer than `n` tokens are left stops at a token, as a unary
expression if it was asked for that. -/
def StopsBelow (n : Nat) : Prop :=
  ∀ (bp : BindingPower) (err : SyntaxError) (c c' : Cursor), c.Terminated → c.tokens.length < n →
    standard.expression bp c = ⟨.error err, c'⟩ →
    StopsAt (Derives .expression) c (c'.forward err.cause.ahead) err ∧
      (.product ≤ bp → StopsAt (Derives .unary) c (c'.forward err.cause.ahead) err)

/-- Fewer tokens leave fewer expressions to speak of. -/
theorem StopsBelow.mono {m n : Nat} (h : StopsBelow n) (hle : m ≤ n) : StopsBelow m :=
  fun bp err c c' hc hlt => h bp err c c' hc (Nat.lt_of_lt_of_le hlt hle)

/-- An operand that fails stops at a token, if the expressions inside it do. -/
theorem stopsAt_of_operand (hc : c.Terminated) (hend : c.atEnd = false)
    (inner : StopsBelow c.tokens.length)
    (h : standard.operand standard.expression c = ⟨.error err, c'⟩) :
    StopsAt (Derives .unary) c (c'.forward err.cause.ahead) err := by
  have hadvance := Cursor.length_advance_lt_of_not_atEnd hend
  rcases operand_eq_error h with ⟨rfl, hblamed⟩ | ⟨op, hop, harg⟩ |
      ⟨hrule, hinner | ⟨e, hinner, hexpect⟩⟩
  · rcases hblamed with rfl | ⟨-, rfl⟩
    · exact ⟨rfl, [], rfl, viable_operand⟩
    · exact ⟨rfl, [], rfl, viable_operand⟩
  · obtain ⟨-, hunary⟩ := inner _ _ _ _ hc.advance hadvance harg
    have hprefix := mem_unaryKinds_iff.mpr ⟨op, hop⟩
    exact (hunary (by decide)).of_advance hend fun ts hts => hts.imp fun more => .unary hprefix
  · obtain ⟨hexpr, -⟩ := inner _ _ _ _ hc.advance hadvance hinner
    exact hexpr.of_advance hend fun ts hts => hts.group (kind_of_grouped hrule)
  · obtain ⟨hahead, hposition⟩ := Cursor.blamed_of_expect hexpect
    obtain ⟨ts, hts, hexpr⟩ := derives_of_expression hc.advance hinner
    have hopen : StopsAt (Derives .expression) c.advance c'.advance err := by
      refine ⟨hposition, ts, hts, [], fun face hface => absurd hface List.not_mem_nil, ?_⟩
      intro more hmore
      rwa [List.map_eq_nil_iff.mp hmore, List.append_nil]
    rw [hahead]
    exact hopen.of_advance hend fun ts hts => hts.group (kind_of_grouped hrule)

/-- A climb that fails stops at a token behind what was read before it, if the expressions it reads
do. -/
theorem stopsAt_of_climb {bp : BindingPower} {left : Expr} (hc : c.Terminated)
    (inner : StopsBelow c.tokens.length) (h : standard.climb bp left c = ⟨.error err, c'⟩) :
    err.position = (c'.forward err.cause.ahead).current.span.start ∧
      ∃ us, c.advance.tokens = us ++ (c'.forward err.cause.ahead).tokens ∧
        ∀ ts, Derives .expression ts → Viable (Derives .expression) (ts ++ us) := by
  revert inner hc h
  refine climb_induction (motive := fun _ c r => c.Terminated → StopsBelow c.tokens.length →
    r = ⟨.error err, c'⟩ → err.position = (c'.forward err.cause.ahead).current.span.start ∧
      ∃ us, c.advance.tokens = us ++ (c'.forward err.cause.ahead).tokens ∧
        ∀ ts, Derives .expression ts → Viable (Derives .expression) (ts ++ us)) ?_ ?_ ?_ left c
  · rintro left c - - - ⟨⟩
  · rintro left c op err c' hop hr hc inner ⟨⟩
    obtain ⟨hkind, -⟩ := (standard_operatorAhead?_eq_some_iff hc).mp hop
    rw [← Cursor.current_advance] at hkind
    have hend := atEnd_of_operatorAhead? hop
    have hadvance := Cursor.length_advance_lt_of_not_atEnd hend
    have hshort := Nat.lt_of_lt_of_le hadvance c.length_advance_le
    obtain ⟨⟨hposition, us, hus, hviable⟩, -⟩ :=
      inner _ _ _ _ hc.advance.advance hshort (operation_eq_error hr)
    refine ⟨hposition, c.advance.current :: us, ?_, ?_⟩
    · rw [Cursor.tokens_of_not_atEnd hend, hus, List.cons_append]
    · intro ts hts
      refine hviable.imp fun more hright => ?_
      have hjoined := hts.join (mem_binaryKinds_iff.mpr ⟨op, hkind⟩) hright
      rwa [List.append_assoc]
  · intro left c op e c₁ hop hr ih hc inner hclimb
    obtain ⟨hkind, -⟩ := (standard_operatorAhead?_eq_some_iff hc).mp hop
    rw [← Cursor.current_advance] at hkind
    have hend := atEnd_of_operatorAhead? hop
    have hc₁ := terminated_of_operation hc.advance hr
    obtain ⟨right, hright, -⟩ := operation_eq_ok_iff.mp hr
    obtain ⟨rs, hrs, hexpr⟩ := derives_of_expression hc.advance.advance hright
    obtain ⟨hposition, us, hus, hviable⟩ :=
      ih hc₁ (inner.mono (Nat.le_of_lt (length_operation_lt hop hr))) hclimb
    refine ⟨hposition, c.advance.current :: rs ++ us, ?_, ?_⟩
    · rw [Cursor.tokens_of_not_atEnd hend, hrs, hus, List.cons_append, List.cons_append,
        List.append_assoc]
    · intro ts hts
      rw [← List.append_assoc]
      exact hviable _ (hts.join (mem_binaryKinds_iff.mpr ⟨op, hkind⟩) hexpr)

/-- All expressions that fail stop at a token, by induction on the number of tokens left. -/
theorem stopsBelow (n : Nat) : StopsBelow n := by
  induction n with
  | zero =>
    intro bp err c c' hc hlt
    exact absurd hlt (Nat.not_lt_zero _)
  | succ n ih =>
    intro bp err c c' hc hlt h
    have inner : StopsBelow c.tokens.length := ih.mono (Nat.le_of_lt_succ hlt)
    rcases expression_eq_error h with ⟨hend, rfl, rfl⟩ | ⟨hend, hoperand | ⟨left, c₁, hoperand, hclimb⟩⟩
    · have hstop : StopsAt (Derives .unary) c' (c'.forward 0) c'.current.noOperand :=
        ⟨by rw [Cursor.forward_zero]; rfl, [], by rw [Cursor.forward_zero]; rfl, viable_operand⟩
      exact ⟨hstop.imp fun ts => .ofUnary, fun _ => hstop⟩
    · have hstop := stopsAt_of_operand hc hend inner hoperand
      exact ⟨hstop.imp fun ts => .ofUnary, fun _ => hstop⟩
    · have hc₁ := terminated_of_operand hc hoperand
      have hle : c₁.tokens.length ≤ c.tokens.length := length_operand_le hoperand
      obtain ⟨ts, hts, hunary⟩ := derives_of_operand hc hend hoperand
      obtain ⟨hposition, us, hus, hviable⟩ := stopsAt_of_climb hc₁ (inner.mono hle) hclimb
      refine ⟨⟨hposition, ts ++ us, ?_, hviable ts (.ofUnary hunary)⟩, fun hbp => ?_⟩
      · rw [hts, hus, List.append_assoc]
      · rw [standard_climb_of_product_le hc₁ hbp] at hclimb
        cases hclimb

/-- **An expression that fails stops at a token.** -/
theorem stopsAt_of_expression {bp : BindingPower} (hc : c.Terminated)
    (h : standard.expression bp c = ⟨.error err, c'⟩) :
    StopsAt (Derives .expression) c (c'.forward err.cause.ahead) err :=
  (stopsBelow _ bp err c c' hc (Nat.lt_succ_self _) h).1

/-! ### Statements that fail -/

/-- A binding that fails is short of its name and an `=`, or of the `=` alone. -/
theorem stopsAt_of_binding (hc : c.Terminated) (hend : c.atEnd = false)
    (hkind : c.current.kind = .letWord) (h : c.binding = ⟨.error err, c'⟩) :
    err.position = (c'.forward err.cause.ahead).current.span.start ∧
      ∃ ts, c.tokens = ts ++ (c'.forward err.cause.ahead).tokens ∧ Viable (IsStmt · []) ts ∧
        ∀ t ∈ ts, t.kind ≠ .illegal := by
  have hassign : Spells .assign "=" := @Spells.symbol .assign (by decide)
  have hstmt : ∀ {name assign : Token}, name.kind = .identifier → assign.kind = .assign →
      IsStmt [c.current, name, assign] [] := fun hname hassign =>
    @IsStmt.binding _ _ _ [] [] [] hkind hname hassign (fun x hx => absurd hx List.not_mem_nil)
      .endOfInput
  -- what is missing is written behind `let`: a name and `=`, or `=` alone
  rcases Cursor.binding_eq_error h with ⟨rfl, hexpect⟩ | ⟨rfl, hname, hexpect⟩
  · obtain ⟨hahead, hposition⟩ := Cursor.blamed_of_expect hexpect
    rw [hahead]
    refine ⟨hposition, [c'.current], Cursor.tokens_of_not_atEnd hend,
      ⟨[(.identifier, "x"), (.assign, "=")], ?_, ?_⟩, ?_⟩
    · exact List.forall_mem_cons.mpr ⟨spells_x, by simpa using hassign⟩
    · intro more hmore
      obtain ⟨name, more, rfl, hface, hmore⟩ := List.map_eq_cons_iff.mp hmore
      obtain ⟨assign, rfl, hface'⟩ := List.map_eq_singleton_iff.mp hmore
      exact hstmt (congrArg Prod.fst hface) (congrArg Prod.fst hface')
    · intro t ht
      rw [List.mem_singleton.mp ht, hkind]
      decide
  · obtain ⟨hahead, hposition⟩ := Cursor.blamed_of_expect hexpect
    rw [← Cursor.current_advance] at hname
    have hend' := hc.advance.atEnd_eq_false hname (by decide)
    rw [hahead]
    refine ⟨hposition, [c.current, c.advance.current], ?_, ⟨[(.assign, "=")], ?_, ?_⟩, ?_⟩
    · rw [Cursor.tokens_of_not_atEnd hend, Cursor.tokens_of_not_atEnd hend']
      rfl
    · simpa using hassign
    · intro more hmore
      obtain ⟨assign, rfl, hface⟩ := List.map_eq_singleton_iff.mp hmore
      exact hstmt hname (congrArg Prod.fst hface)
    · intro t ht
      rcases List.mem_cons.mp ht with rfl | ht
      · rw [hkind]
        decide
      · rw [List.mem_singleton.mp ht, hname]
        decide

/-- **A statement that fails stops at a token**, with no illegal one in front of it. -/
theorem stopsAt_of_statement {failure : Failure} (hc : c.Terminated) (hend : c.atEnd = false)
    (h : (standard.statement c).failure? = some failure) :
    failure.error.position = failure.last.current.span.start ∧
      ∃ ts, c.tokens = ts ++ failure.last.tokens ∧ Viable (IsStmt · []) ts ∧
        ∀ t ∈ ts, t.kind ≠ .illegal := by
  rcases standard_statement_failure? h with ⟨hkind, hbinding, -⟩ | ⟨hexpression, -⟩
  · exact stopsAt_of_binding hc hend hkind hbinding
  · obtain ⟨hposition, ts, hts, hviable⟩ := stopsAt_of_expression hc hexpression
    exact ⟨hposition, ts, hts, hviable.imp fun more => .expression, hviable.kind_ne_illegal⟩

end Grammar

/-! ### Spelling the missing tokens -/

/-- A text with the given tokens, each behind a blank. -/
def spelling (faces : List (TokenKind × String)) : String :=
  String.join (faces.map fun face => " " ++ face.2)

/-- The text of faces is a blank, the first text, and the text of the others. -/
theorem bytes_spelling_cons (face : TokenKind × String) (faces : List (TokenKind × String)) :
    bytes (spelling (face :: faces)) = ' '.toUInt8 :: (bytes face.2 ++ bytes (spelling faces)) := by
  have hjoin : spelling (face :: faces) = " " ++ face.2 ++ spelling faces := by
    rw [spelling, List.map_cons, String.join_cons]
    rfl
  rw [hjoin, bytes_append, bytes_append, List.append_assoc]
  rfl

/-- The text of faces starts with a blank, so every lexeme stops in front of it. -/
theorem stops_spelling (s : String) (faces : List (TokenKind × String)) :
    Lexeme.Stops s (bytes (spelling faces)) := by
  rcases faces with _ | ⟨face, faces⟩
  · have hempty : bytes (spelling []) = [] := rfl
    rw [hempty]
    exact Lexeme.stops_nil s
  · rw [bytes_spelling_cons]
    exact Lexeme.stops_of_byte (by decide) (by decide)

/-- **A text that spells tokens is scanned into them.** -/
theorem map_face_spelling {faces : List (TokenKind × String)}
    (h : ∀ face ∈ faces, Spells face.1 face.2) :
    (lexemes (bytes (spelling faces))).map Lexeme.face = faces := by
  induction faces with
  | nil =>
    have hempty : bytes (spelling []) = [] := rfl
    rw [hempty, lexemes_nil]
    rfl
  | cons face faces ih =>
    obtain ⟨hface, hfaces⟩ := List.forall_mem_cons.mp h
    rw [bytes_spelling_cons, lexemes_blank (by decide), hface.lexemes (stops_spelling _ _), ih hfaces]

/-- **Behind a text the missing tokens can be spelled**, and change nothing in front of them. -/
theorem exists_tokens_append_spelling {faces : List (TokenKind × String)}
    (h : ∀ face ∈ faces, Spells face.1 face.2) (text : String) (file : Option String) :
    ∃ more, more.map Token.face = faces ∧ (Cursor.ofText (text ++ spelling faces) file).tokens =
      (Cursor.ofText text file).tokens ++ more := by
  have htokens : ∀ text, (Cursor.ofText text file).tokens =
      (Scanner.mk (bytes text) 0 (file.getD Scanner.defaultLabel)).tokens := fun _ => rfl
  rw [htokens, htokens, bytes_append]
  rcases faces with _ | ⟨face, faces⟩
  · refine ⟨[], rfl, ?_⟩
    have hempty : bytes (spelling []) = [] := rfl
    rw [hempty, List.append_nil, List.append_nil]
  · rw [bytes_spelling_cons, Scanner.tokens_append_stop (by decide) (by decide)]
    refine ⟨_, ?_, rfl⟩
    rw [Scanner.map_face_tokens, ← bytes_spelling_cons, map_face_spelling h]

end Prattle
