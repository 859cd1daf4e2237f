import Prattle.Proofs.Acceptance
import Prattle.Proofs.Layout
import Prattle.Proofs.PhraseReadings
import Prattle.Proofs.Tokenization

/-!
# A name stands for any expression in parentheses

In a text that is one expression, a name can be replaced by another such text between parentheses: what is
read then is the tree of the first text with that of the second in the place of the name
(`parse_substitute`).

* **A text is one expression iff its tokens are a phrase** that is bound as the grammar says, with a `;`
  behind it or not (`isExpression_iff`).
* **A leaf can be replaced by a group**, and the phrase stays bound (`Phrase.Substitutes`): nothing outside of
  a group looks into it.
* **A text can be cut around each of its tokens** (`exists_append_around`), and what stands between parentheses
  is scanned on its own (`lexemes_parenthesised`).
-/

namespace Prattle

/-! ### Trees with a place left out -/

/-- A tree in which the place of one subtree is left out. -/
inductive Expr.Context where
  | hole
  | unary (token : Token) (op : UnaryOp) (operand : Context) (span : Span)
  | left (token : Token) (op : BinaryOp) (operand : Context) (right : Expr) (span : Span)
  | right (token : Token) (op : BinaryOp) (left : Expr) (operand : Context) (span : Span)

/-- The tree with the given one in the place that was left out. -/
def Expr.Context.fill : Context → Expr → Expr
  | hole, e => e
  | unary t op k span, e => .unary t op (k.fill e) span
  | left t op k r span, e => .binary t op (k.fill e) r span
  | right t op l k span, e => .binary t op l (k.fill e) span

/-! ### Phrases -/

namespace Phrase

/-- The phrase is the expression as the grammar reads it, in its groups too. -/
structure Forms (g : Grammar) (s : Phrase) (e : Expr) : Prop where
  gives : s.Gives e
  binds : s.Binds g .lowest
  insides : ∀ inside ∈ s.insides, inside.Binds g .lowest

/-- The second phrase is the first one with `n` in the place of one leaf, the token `t`. -/
inductive Substitutes (t : Token) (n : Phrase) : Phrase → Phrase → Prop
  | leaf : Substitutes t n (leaf t) n
  | group {l r : Token} {s s' : Phrase} (inner : Substitutes t n s s') :
      Substitutes t n (group l s r) (group l s' r)
  | prefixed {u : Token} {s s' : Phrase} (operand : Substitutes t n s s') :
      Substitutes t n (prefixed u s) (prefixed u s')
  | left {u : Token} {s s' r : Phrase} (operand : Substitutes t n s s') :
      Substitutes t n (infixed u s r) (infixed u s' r)
  | right {u : Token} {l s s' : Phrase} (operand : Substitutes t n s s') :
      Substitutes t n (infixed u l s) (infixed u l s')

variable {g : Grammar} {t l r : Token} {n q s s' : Phrase} {e : Expr}

/-- A phrase in place of a leaf has its tokens in place of the leaf's. -/
theorem Substitutes.exists_tokens (h : Substitutes t n s s') :
    ∃ us vs, s.tokens = us ++ t :: vs ∧ s'.tokens = us ++ n.tokens ++ vs := by
  induction h with
  | leaf => exact ⟨[], [], rfl, (List.append_nil _).symm⟩
  | @group l r s s' _ ih =>
    obtain ⟨us, vs, hs, hs'⟩ := ih
    refine ⟨l :: us, vs ++ [r], ?_, ?_⟩
    · simp only [tokens, hs, List.cons_append, List.append_assoc]
    · simp only [tokens, hs', List.cons_append, List.append_assoc]
  | @prefixed u s s' _ ih =>
    obtain ⟨us, vs, hs, hs'⟩ := ih
    refine ⟨u :: us, vs, ?_, ?_⟩
    · simp only [tokens, hs, List.cons_append]
    · simp only [tokens, hs', List.cons_append]
  | @left u s s' r _ ih =>
    obtain ⟨us, vs, hs, hs'⟩ := ih
    refine ⟨us, vs ++ u :: r.tokens, ?_, ?_⟩
    · simp only [tokens, hs, List.cons_append, List.append_assoc]
    · simp only [tokens, hs', List.append_assoc]
  | @right u l s s' _ ih =>
    obtain ⟨us, vs, hs, hs'⟩ := ih
    refine ⟨l.tokens ++ u :: us, vs, ?_, ?_⟩
    · simp only [tokens, hs, List.cons_append, List.append_assoc]
    · simp only [tokens, hs', List.cons_append, List.append_assoc]

/-- **A group has no powers of its own**, and so a phrase keeps its spines when a group takes the place of a
leaf. -/
theorem Substitutes.powers_eq (h : Substitutes t (.group l q r) s s') :
    s'.leftPowers g = s.leftPowers g ∧ s'.rightPowers g = s.rightPowers g := by
  induction h with
  | leaf | group => exact ⟨rfl, rfl⟩
  | prefixed _ ih => exact ⟨rfl, congrArg (List.cons _) ih.2⟩
  | left _ ih => exact ⟨congrArg (List.cons _) ih.1, rfl⟩
  | right _ ih => exact ⟨rfl, congrArg (List.cons _) ih.2⟩

/-- A group in the place of a leaf leaves the operators around it in their order. -/
theorem Substitutes.ordered (h : Substitutes t (.group l q r) s s') (hs : s.Ordered g) : s'.Ordered g := by
  induction h with
  | leaf | group => trivial
  | prefixed operand ih => exact ⟨operand.powers_eq.1 ▸ hs.1, ih hs.2⟩
  | left operand ih => exact ⟨operand.powers_eq.2 ▸ hs.1, hs.2.1, ih hs.2.2.1, hs.2.2.2⟩
  | right operand ih => exact ⟨hs.1, operand.powers_eq.1 ▸ hs.2.1, hs.2.2.1, ih hs.2.2.2⟩

/-- **The phrase stays bound as the grammar says** when a group takes the place of a leaf. -/
theorem Substitutes.binds (h : Substitutes t (.group l q r) s s') {bp : BindingPower} (hs : s.Binds g bp) :
    s'.Binds g bp :=
  ⟨h.powers_eq.1 ▸ hs.above, h.ordered hs.ordered⟩

/-- Where the insides of groups are bound as they should be, they still are with a group in the
place of a leaf. -/
theorem Substitutes.insides (h : Substitutes t (.group l q r) s s') (hq : q.Binds g .lowest)
    (hinsides : ∀ inside ∈ q.insides, inside.Binds g .lowest)
    (hs : ∀ inside ∈ s.insides, inside.Binds g .lowest) :
    ∀ inside ∈ s'.insides, inside.Binds g .lowest := by
  induction h with
  | leaf => exact List.forall_mem_cons.mpr ⟨hq, hinsides⟩
  | group inner ih =>
    obtain ⟨hinner, hs⟩ := List.forall_mem_cons.mp hs
    exact List.forall_mem_cons.mpr ⟨inner.binds hinner, ih hs⟩
  | prefixed _ ih => exact ih hs
  | left _ ih =>
    obtain ⟨hl, hr⟩ := List.forall_mem_append.mp hs
    exact List.forall_mem_append.mpr ⟨ih hl, hr⟩
  | right _ ih =>
    obtain ⟨hl, hr⟩ := List.forall_mem_append.mp hs
    exact List.forall_mem_append.mpr ⟨hl, ih hr⟩

/-- **A name in the tree is a leaf of the phrase**, and what takes its place in the phrase takes its place in
the tree. -/
theorem Gives.exists_substitutes {k : Expr.Context} {id : Identifier} {e' : Expr}
    (h : s.Gives (k.fill (.identifier id))) (hn : n.Gives e') :
    ∃ t s' e'', t.primary = .ok (.identifier id) ∧ Substitutes t n s s' ∧ s'.Gives e'' ∧
      e''.unplaced = (k.fill e').unplaced := by
  induction s generalizing k with
  | leaf t =>
    cases h with
    | leaf primary =>
      cases k with
      | hole => exact ⟨t, n, e', primary, .leaf, hn, rfl⟩
      | unary | left | right =>
        rcases Token.primary_eq_ok primary with ⟨_, -, -, h⟩ | ⟨-, h⟩ | ⟨-, h⟩ | ⟨-, h⟩ <;> cases h
  | group l s r ih =>
    cases h with
    | group left inner right =>
      obtain ⟨t, s', e'', hprimary, hsubstitutes, hgives, hunplaced⟩ := ih inner
      exact ⟨t, _, e'', hprimary, .group hsubstitutes, .group left hgives right, hunplaced⟩
  | prefixed u s ih =>
    cases k with
    | hole | left | right => cases h
    | unary v op k span =>
      cases h with
      | prefixed kind operand =>
        obtain ⟨t, s', e'', hprimary, hsubstitutes, hgives, hunplaced⟩ := ih operand
        refine ⟨t, _, _, hprimary, .prefixed hsubstitutes, .prefixed kind hgives, ?_⟩
        exact congrArg (Expr.unary _ _ · _) hunplaced
  | infixed u a b iha ihb =>
    cases k with
    | hole | unary => cases h
    | left v op k right span =>
      cases h with
      | infixed left kind right =>
        obtain ⟨t, s', e'', hprimary, hsubstitutes, hgives, hunplaced⟩ := iha left
        refine ⟨t, _, _, hprimary, .left hsubstitutes, .infixed hgives kind right, ?_⟩
        exact congrArg (Expr.binary _ _ · _ _) hunplaced
    | right v op left k span =>
      cases h with
      | infixed left kind right =>
        obtain ⟨t, s', e'', hprimary, hsubstitutes, hgives, hunplaced⟩ := ihb right
        refine ⟨t, _, _, hprimary, .right hsubstitutes, .infixed left kind hgives, ?_⟩
        exact congrArg (Expr.binary _ _ _ · _) hunplaced

end Phrase

/-! ### Texts that are one expression -/

/-- The text has no error and is one statement, the expression. -/
def IsExpression (text : String) (file : Option String) (e : Expr) : Prop :=
  ∃ t span, parse text file = (⟨[.expression t (some e) span]⟩, [])

namespace Grammar

variable {c c' : Cursor} {e : Expr} {s : Phrase}

open Syntax (IsEnd)

/-- The readings are those of one expression, and of nothing else. -/
def ReadsExpression (c : Cursor) (e : Expr) : Prop :=
  ∃ t span, Reading.values (standard.statements c) = [.expression t (some e) span] ∧
    Reading.errors (standard.statements c) = []

/-- No statement with a rule of its own starts like an expression. -/
theorem statement?_of_expression {bp : BindingPower} (hc : c.Terminated)
    (h : standard.expression bp c = ⟨.ok e, c'⟩) : standard.statement? c.current.kind = none := by
  obtain ⟨-, left, c₁, hoperand, -⟩ := expression_eq_ok h
  exact statement?_of_gives ⟨left, c₁, hoperand, rfl, terminated_of_operand hc hoperand, rfl⟩

/-- A statement that did not fail was read. -/
theorem exists_value_of_statement (h : (standard.statement c).failure? = none) :
    ∃ s, (standard.statement c).value = some s := by
  rcases hrule : standard.statement? c.current.kind with _ | rule
  · rcases hr : standard.expression .lowest c with ⟨err | e, c'⟩
    · rw [statement_of_expression_error hrule hr]
      exact ⟨_, rfl⟩
    · rw [statement_of_expression_ok hrule hr]
      exact ⟨_, rfl⟩
  · rcases hr : ruleStatement rule c with ⟨err | s, c'⟩
    · rw [statement_of_rule_error hrule hr] at h
      cases h
    · rw [statement_of_rule_ok hrule hr]
      exact ⟨_, rfl⟩

/-- Where nothing is read and nothing fails, no token is left. -/
theorem nil_of_values_errors (hvalues : Reading.values (standard.statements c) = [])
    (herrors : Reading.errors (standard.statements c) = []) : c.atEnd = true := by
  rcases hend : c.atEnd with _ | _
  · rw [statements_of_not_atEnd hend, Reading.values_cons, List.append_eq_nil_iff] at hvalues
    rw [statements_of_not_atEnd hend, Reading.errors_cons, List.append_eq_nil_iff] at herrors
    have hnone : (standard.statement c).failure? = none := by
      simpa [Option.toList_eq_nil_iff] using herrors.1
    obtain ⟨s, hs⟩ := exists_value_of_statement hnone
    rw [hs] at hvalues
    cases hvalues.1
  · rfl

/-- Behind an expression only a `;` is left, or nothing. -/
theorem isEnd_iff (hc : c.Terminated) : IsEnd c.advance.tokens [] ↔ c.passSemicolon.advance.atEnd = true := by
  by_cases hahead : c.lookahead.kind = .semicolon
  · rw [Cursor.passSemicolon_of_semicolon hahead]
    rw [← Cursor.current_advance] at hahead
    rw [Cursor.tokens_of_not_atEnd (hc.advance.atEnd_eq_false hahead (by decide)), Cursor.atEnd,
      List.isEmpty_iff]
    constructor
    · intro h
      generalize c.advance.advance.tokens = rest at h
      cases h
      rfl
    · intro h
      rw [h]
      exact .semicolon hahead
  · rw [Cursor.passSemicolon_of_ne hahead, Cursor.atEnd, List.isEmpty_iff]
    constructor
    · intro h
      generalize hrest : c.advance.tokens = rest at h
      cases h with
      | semicolon kind =>
        rw [← Cursor.current_advance, Cursor.current_of_tokens hrest] at hahead
        exact absurd kind hahead
      | endOfInput => rfl
    · intro h
      rw [h]
      exact .endOfInput

/-- **One expression and nothing else is read** where an expression is read and only a `;` may be left. -/
theorem readsExpression_iff_expression (hc : c.Terminated) :
    ReadsExpression c e ↔
      ∃ c', standard.expression .lowest c = ⟨.ok e, c'⟩ ∧ IsEnd c'.advance.tokens [] := by
  constructor
  · rintro ⟨t, span, hvalues, herrors⟩
    have hend : c.atEnd = false := by
      rcases hend : c.atEnd with _ | _
      · rfl
      · rw [statements_of_atEnd hend] at hvalues
        cases hvalues
    rw [statements_of_not_atEnd hend, Reading.values_cons] at hvalues
    rw [statements_of_not_atEnd hend, Reading.errors_cons, List.append_eq_nil_iff] at herrors
    rcases hrule : standard.statement? c.current.kind with _ | rule
    · rcases hr : standard.expression .lowest c with ⟨err | e₁, c₁⟩
      · rw [statement_of_expression_error hrule hr] at herrors
        cases herrors.1
      · rw [statement_of_expression_ok hrule hr] at hvalues herrors
        obtain ⟨⟨⟩, hmore⟩ := List.cons.inj hvalues
        refine ⟨c₁, rfl, (isEnd_iff (terminated_of_expression hc hr)).mpr ?_⟩
        exact nil_of_values_errors hmore herrors.2
    · rcases hr : ruleStatement rule c with ⟨err | s, c₁⟩
      · rw [statement_of_rule_error hrule hr] at herrors
        cases herrors.1
      · rw [statement_of_rule_ok hrule hr] at hvalues
        obtain ⟨rfl, -⟩ := List.cons.inj hvalues
        cases rule with
        | binding =>
          obtain ⟨-, -, -, hs⟩ := Cursor.binding_eq_ok_iff.mp hr
          cases hs
        | returning => cases hr
  · rintro ⟨c', hr, hstop⟩
    have hend := (expression_eq_ok hr).1
    have hstatement := statement_of_expression_ok (statement?_of_expression hc hr) hr
    have hlast := (isEnd_iff (terminated_of_expression hc hr)).mp hstop
    rw [ReadsExpression, statements_of_not_atEnd hend, hstatement, statements_of_atEnd hlast]
    exact ⟨_, _, rfl, rfl⟩

/-- **One expression and nothing else is read where the tokens are a phrase** that is bound as the grammar
says, with a `;` behind it or not. -/
theorem readsExpression_iff (hc : c.Terminated) :
    ReadsExpression c e ↔
      ∃ (s : Phrase) (stop : List Token), s.Forms standard e ∧ c.tokens = s.tokens ++ stop ∧
        IsEnd stop [] := by
  rw [readsExpression_iff_expression hc]
  constructor
  · rintro ⟨c', hr, hstop⟩
    obtain ⟨s, hs⟩ := reads_of_expression repowered_standard hc hr
    exact ⟨s, _, ⟨hs.gives, hs.binds, hs.insides⟩, hs.tokens, hstop⟩
  · rintro ⟨s, stop, hs, htokens, hstop⟩
    have hahead : (stop.headD c.eof).kind = .semicolon ∨
        ∀ p ∈ .lowest :: s.rightPowers standard, standard.power (stop.headD c.eof).kind ≤ p := by
      rcases hstop with kind | _
      · exact .inl kind
      · have hlowest : standard.power c.eof.kind = .lowest := by
          rw [hc.eof]
          rfl
        exact .inr fun p _ => hlowest ▸ Nat.zero_le _
    obtain ⟨n, hrest, hr⟩ :=
      expression_of_phrase repowered_standard hs.gives hs.binds hs.insides hc htokens hahead
    exact ⟨_, hr, hrest ▸ hstop⟩

/-- What is read as one expression is read so wherever its tokens stand. -/
theorem ReadsExpression.of_faces {d : Cursor} (h : ReadsExpression c e) (hfaces : c.faces = d.faces)
    (heof : c.eof.face = d.eof.face) : ∃ e', ReadsExpression d e' ∧ e'.unplaced = e.unplaced := by
  obtain ⟨t, span, hvalues, herrors⟩ := h
  obtain ⟨hvalues', herrors'⟩ := unplaced_of_faces hfaces heof
  rw [hvalues] at hvalues'
  rw [herrors] at herrors'
  obtain ⟨s', hs', hunplaced⟩ := List.map_eq_singleton_iff.mp hvalues'.symm
  rcases s' with _ | _ | ⟨t', _ | e', span'⟩
  · cases hunplaced
  · cases hunplaced
  · injection hunplaced with _ hvalue
    cases hvalue
  · have he' : e'.unplaced = e.unplaced := by
      injection hunplaced with _ hvalue
      exact Option.some.inj hvalue
    exact ⟨e', ⟨t', span', hs', List.map_eq_nil_iff.mp herrors'.symm⟩, he'⟩

end Grammar

/-- A text is an expression if its tokens are read as one, to the last of them. -/
theorem isExpression_iff_readsExpression {text : String} {file : Option String} {e : Expr} :
    IsExpression text file e ↔ Grammar.ReadsExpression (Cursor.ofText text file) e := by
  rw [IsExpression, parse_eq]
  constructor
  · rintro ⟨t, span, h⟩
    obtain ⟨hvalues, herrors⟩ := Prod.mk.inj h
    exact ⟨t, span, congrArg Program.statements hvalues, herrors⟩
  · rintro ⟨t, span, hvalues, herrors⟩
    exact ⟨t, span, by rw [hvalues, herrors]⟩

/-! ### Cutting around a token -/

/-- **A text can be cut around each of its tokens**, if the token is no illegal one: what stands in front of it
and what stands behind it are scanned each on its own. -/
theorem exists_append_around {text : String} {file : Option String} (hsize : text.utf8ByteSize < 2 ^ 32)
    {pre post : List Token} {t : Token} (h : (Cursor.ofText text file).tokens = pre ++ t :: post)
    (hkind : t.kind ≠ .illegal) :
    ∃ a b, text = a ++ t.text ++ b ∧ a.utf8ByteSize = t.first ∧ (a ++ t.text).utf8ByteSize = t.past ∧
      (lexemes (bytes a)).map Lexeme.face = pre.map Token.face ∧
      (lexemes (bytes b)).map Lexeme.face = post.map Token.face := by
  obtain ⟨before, after, hsplit, hbefore, hafter, hstart⟩ := Scanner.exists_cut h
  rcases blanks_cases after with hblank | ⟨run, b, rest, rfl, hrun, hb⟩
  · rw [Scanner.tokens_of_blanks hblank] at hafter
    cases hafter
  rw [Scanner.tokens_of_lexeme hrun hb] at hafter
  obtain ⟨rfl, hpost⟩ := List.cons.inj hafter
  have htotal : text.utf8ByteSize = before.length + (run.length + (rest.length + 1)) := by
    rw [← length_bytes, hsplit, List.length_append, List.length_append, List.length_cons]
  have hlexeme := congrArg List.length (Lexeme.tail_append_after b rest)
  rw [List.length_append] at hlexeme
  have hoffsets := @Span.toNat_offset_ofRange (file.getD Scanner.defaultLabel)
    (0 + before.length + run.length)
    (0 + before.length + run.length + (b :: Lexeme.tail b rest).length) (Nat.le_add_right _ _)
    (by rw [List.length_cons]; omega)
  -- the bytes are cut where the token starts, so no blank is left in front of it
  have hrunNil : run = [] := by
    have hoffset : (0 + before.length).toUInt32.toNat = 0 + before.length :=
      UInt32.toNat_ofNat_of_lt' (Nat.lt_of_le_of_lt (by omega) hsize)
    have hfirst := congrArg (fun p : Position => p.offset.toNat) hstart
    have hlength : 0 + before.length + run.length = 0 + before.length :=
      hoffsets.1.symm.trans (hfirst.trans hoffset)
    exact List.eq_nil_of_length_eq_zero (by omega)
  subst hrunNil
  rcases Lexeme.is_tail hb rest with ⟨hspells, hbytes⟩ | ⟨-, -, -, hillegal, -⟩
  · have htext : bytes text =
        before ++ (bytes (Lexeme.text (b :: Lexeme.tail b rest)) ++ Lexeme.after b rest) := by
      rw [hsplit, hbytes, List.cons_append, Lexeme.tail_append_after, List.nil_append]
    have hne : Lexeme.text (b :: Lexeme.tail b rest) ≠ "" := by
      intro hempty
      rw [hempty, bytes_empty] at hbytes
      cases hbytes
    obtain ⟨a, c, heq, rfl, hc⟩ := exists_append_of_ascii hspells.isAscii hne htext
    have ha : a.utf8ByteSize = 0 + (bytes a).length := by rw [length_bytes, Nat.zero_add]
    refine ⟨a, c, heq, ha.trans hoffsets.1.symm, ?_, ?_, ?_⟩
    · have hlength := congrArg List.length hbytes
      rw [length_bytes] at hlength
      rw [String.utf8ByteSize_append, ha]
      exact (congrArg _ hlength).trans hoffsets.2.symm
    · rw [← hbefore, Scanner.map_face_tokens]
    · rw [← hpost, Scanner.map_face_tokens, hc]
  · exact absurd hillegal hkind

/-- **What stands between parentheses is scanned on its own**, and so is what stands on either side. -/
theorem lexemes_parenthesised (a s b : String) :
    (lexemes (bytes (a ++ "(" ++ s ++ ")" ++ b))).map Lexeme.face =
      (lexemes (bytes a)).map Lexeme.face ++ (.leftParen, "(") ::
        ((lexemes (bytes s)).map Lexeme.face ++ (.rightParen, ")") ::
          (lexemes (bytes b)).map Lexeme.face) := by
  have hopen : bytes "(" = ['('.toUInt8] := rfl
  have hclose : bytes ")" = [')'.toUInt8] := rfl
  have hbytes : bytes (a ++ "(" ++ s ++ ")" ++ b) =
      bytes a ++ '('.toUInt8 :: (bytes s ++ ')'.toUInt8 :: bytes b) := by
    simp only [bytes_append, hopen, hclose, List.append_assoc, List.cons_append, List.nil_append]
  rw [hbytes, map_face_lexemes_append_stop (by decide) (by decide), lexemes_paren (.inl rfl),
    List.map_cons, map_face_lexemes_append_stop (by decide) (by decide), lexemes_paren (.inr rfl),
    List.map_cons]
  rfl

/-! ### Substitution -/

/-- A text is one expression iff its tokens are a phrase that is bound as the grammar says, with a `;` behind
it or not. -/
theorem isExpression_iff {text : String} {file : Option String} {e : Expr} :
    IsExpression text file e ↔
      ∃ (s : Phrase) (stop : List Token), s.Forms .standard e ∧
        (Cursor.ofText text file).tokens = s.tokens ++ stop ∧ Syntax.IsEnd stop [] := by
  rw [isExpression_iff_readsExpression, Grammar.readsExpression_iff (Cursor.terminated_ofText text file)]

/-- A text is one expression if its tokens have the faces of those of a phrase that forms one. -/
theorem IsExpression.of_faces {text : String} {file : Option String} {e : Expr} {s : Phrase}
    {stop : List Token} (hs : s.Forms .standard e) (hstop : Syntax.IsEnd stop [])
    (hfaces : (lexemes (bytes text)).map Lexeme.face = (s.tokens ++ stop).map Token.face) :
    ∃ e', IsExpression text file e' ∧ e'.unplaced = e.unplaced := by
  let c : Cursor := ⟨s.tokens ++ stop, (Cursor.ofText text file).eof, 0⟩
  have hfaces : c.faces = (Cursor.ofText text file).faces :=
    hfaces.symm.trans (Cursor.faces_ofText text file).symm
  have hterminated := Cursor.terminated_ofText text file
  have hc : c.Terminated := by
    refine ⟨hterminated.eof, fun u hu => ?_⟩
    have hface : u.face ∈ (Cursor.ofText text file).faces := hfaces ▸ List.mem_map_of_mem hu
    obtain ⟨v, hv, hvu⟩ := List.mem_map.mp hface
    rw [← show v.kind = u.kind from congrArg Prod.fst hvu]
    exact hterminated.tokens v hv
  have hreads := (Grammar.readsExpression_iff hc).mpr ⟨s, stop, hs, rfl, hstop⟩
  obtain ⟨e', he', hunplaced⟩ := hreads.of_faces hfaces rfl
  exact ⟨e', isExpression_iff_readsExpression.mpr he', hunplaced⟩

/-- Without a `;`, the tokens of a text that is one expression are those of a phrase. -/
theorem IsExpression.exists_phrase {text : String} {file : Option String} {e : Expr}
    (h : IsExpression text file e) (hsemicolon : ∀ u ∈ tokenize text file, u.kind ≠ .semicolon) :
    ∃ s : Phrase, s.Forms .standard e ∧
      (lexemes (bytes text)).map Lexeme.face = s.tokens.map Token.face := by
  obtain ⟨s, stop, hs, htokens, hstop⟩ := isExpression_iff.mp h
  refine ⟨s, hs, ?_⟩
  rcases hstop with @⟨u, _, kind⟩ | _
  · refine absurd kind (hsemicolon u (List.mem_append_left _ ?_))
    show u ∈ (Cursor.ofText text file).tokens
    rw [htokens]
    exact List.mem_append_right _ List.mem_cons_self
  · rw [← Cursor.faces_ofText text file, Cursor.faces, htokens, List.append_nil]

/-- The group around a phrase forms the same expression. -/
theorem Phrase.Forms.group {g : Grammar} {s : Phrase} {e : Expr} {l r : Token} (h : s.Forms g e)
    (left : l.kind = .leftParen) (right : r.kind = .rightParen) : (Phrase.group l s r).Forms g e where
  gives := .group left h.gives right
  binds := ⟨nofun, trivial⟩
  insides := List.forall_mem_cons.mpr ⟨h.binds, h.insides⟩

/-- The text between `n` pairs of parentheses. -/
def parenthesised : Nat → String → String
  | 0, text => text
  | n + 1, text => "(" ++ parenthesised n text ++ ")"

/-- **Parentheses around a whole expression change nothing but positions**, however many there are. -/
theorem isExpression_parenthesised {text : String} {file : Option String} {e : Expr}
    (h : IsExpression text file e) (hsemicolon : ∀ u ∈ tokenize text file, u.kind ≠ .semicolon) (n : Nat)
    (file' : Option String) :
    ∃ e', IsExpression (parenthesised n text) file' e' ∧ e'.unplaced = e.unplaced := by
  have hphrase : ∃ s : Phrase, s.Forms .standard e ∧
      (lexemes (bytes (parenthesised n text))).map Lexeme.face = s.tokens.map Token.face := by
    induction n with
    | zero => exact h.exists_phrase hsemicolon
    | succ n ih =>
      obtain ⟨s, hs, hfaces⟩ := ih
      have hgroup := hs.group (l := ⟨.leftParen, "(", default⟩) (r := ⟨.rightParen, ")", default⟩) rfl rfl
      refine ⟨_, hgroup, ?_⟩
      have htext : parenthesised (n + 1) text = "" ++ "(" ++ parenthesised n text ++ ")" ++ "" := by
        rw [String.append_empty, String.empty_append, parenthesised]
      rw [htext, lexemes_parenthesised, hfaces, bytes_empty, lexemes_nil, Phrase.tokens, List.map_append]
      rfl
  obtain ⟨s, hs, hfaces⟩ := hphrase
  exact IsExpression.of_faces hs .endOfInput (by rw [hfaces, List.append_nil])

/-- **A name stands for any expression in parentheses.** A text that is one expression, with a `;` behind it
or not, can be cut in front of each name in its tree and behind it. With any other text that is one
expression, without a `;`, between parentheses in the place of the name, it is one expression again, and its
tree is the first one with that of the other text in the place of the name, up to positions. So the other text
is the same expression between any number of parentheses. -/
theorem parse_substitute (t s : String) (file file' : Option String) (hsize : t.utf8ByteSize < 2 ^ 32)
    (k : Expr.Context) (id : Identifier) (e : Expr) (ht : IsExpression t file (k.fill (.identifier id)))
    (hs : IsExpression s file' e) (hsemicolon : ∀ u ∈ tokenize s file', u.kind ≠ .semicolon) :
    (∃ a b, t = a ++ id.name ++ b ∧ a.utf8ByteSize = id.span.start.offset.toNat ∧
      (a ++ id.name).utf8ByteSize = id.span.stop.offset.toNat ∧
      ∀ file'', ∃ e', IsExpression (a ++ "(" ++ s ++ ")" ++ b) file'' e' ∧
        e'.unplaced = (k.fill e).unplaced) ∧
    ∀ n file'', ∃ e', IsExpression (parenthesised n s) file'' e' ∧ e'.unplaced = e.unplaced := by
  refine ⟨?_, isExpression_parenthesised hs hsemicolon⟩
  obtain ⟨p, stop, hp, hpTokens, hstop⟩ := isExpression_iff.mp ht
  obtain ⟨q, hq, hqFaces⟩ := hs.exists_phrase hsemicolon
  -- the name is a leaf of the phrase, and the other phrase takes its place as a group
  obtain ⟨u, p', e', hprimary, hsubstitutes, hgives, hunplaced⟩ := hp.gives.exists_substitutes
    (n := .group ⟨.leftParen, "(", default⟩ q ⟨.rightParen, ")", default⟩) (.group rfl hq.gives rfl)
  have hforms : p'.Forms .standard e' :=
    ⟨hgives, hsubstitutes.binds hp.binds, hsubstitutes.insides hq.binds hq.insides hp.insides⟩
  obtain ⟨hkind, rfl⟩ : u.kind = .identifier ∧ id = .ofToken u := by
    rcases Token.primary_eq_ok hprimary with ⟨_, -, -, h⟩ | ⟨hkind, h⟩ | ⟨-, h⟩ | ⟨-, h⟩
    · cases h
    · exact ⟨hkind, Expr.identifier.inj h⟩
    · cases h
    · cases h
  obtain ⟨us, vs, hus, hus'⟩ := hsubstitutes.exists_tokens
  have htokens : (Cursor.ofText t file).tokens = us ++ u :: (vs ++ stop) := by
    rw [hpTokens, hus, List.append_assoc, List.cons_append]
  obtain ⟨a, b, htext, ha, hau, hfront, hback⟩ :=
    exists_append_around hsize htokens (by rw [hkind]; decide)
  refine ⟨a, b, htext, ha, hau, fun file'' => ?_⟩
  have hfaces : (lexemes (bytes (a ++ "(" ++ s ++ ")" ++ b))).map Lexeme.face =
      (p'.tokens ++ stop).map Token.face := by
    rw [lexemes_parenthesised, hfront, hqFaces, hback, hus', Phrase.tokens]
    simp only [List.map_append, List.map_cons, List.append_assoc, List.cons_append, List.nil_append]
    rfl
  obtain ⟨e'', he'', hunplaced'⟩ : ∃ e'', IsExpression (a ++ "(" ++ s ++ ")" ++ b) file'' e'' ∧
      e''.unplaced = e'.unplaced := IsExpression.of_faces hforms hstop hfaces
  exact ⟨e'', he'', hunplaced'.trans hunplaced⟩

/-- A comparison takes the place of a factor in a group behind a `-`. -/
theorem parse_substitute_in_group :
    let token (kind : TokenKind) (text : String) (start stop : Nat) : Token :=
      ⟨kind, text, .ofRange "shell" start stop⟩
    let name (text : String) (start stop : Nat) : Identifier :=
      .ofToken (token .identifier text start stop)
    let k : Expr.Context := .unary (token .minus "-" 0 1) .negate
      (.right (token .star "*" 3 4) .multiply (.identifier (name "a" 2 3)) .hole (.ofRange "shell" 2 5))
      (.ofRange "shell" 0 5)
    let e : Expr := .binary (token .equal "==" 1 3) .equal (.identifier (name "x" 0 1))
      (.identifier (name "y" 3 4)) (.ofRange "shell" 0 4)
    IsExpression "-(a*b);" none (k.fill (.identifier (name "b" 4 5))) ∧ IsExpression "x==y" none e ∧
    (∃ a b, "-(a*b);" = a ++ "b" ++ b ∧ a.utf8ByteSize = 4 ∧ (a ++ "b").utf8ByteSize = 5 ∧
      ∀ file, ∃ e', IsExpression (a ++ "(" ++ "x==y" ++ ")" ++ b) file e' ∧
        e'.unplaced = (k.fill e).unplaced) ∧
    ∀ n file, ∃ e', IsExpression (parenthesised n "x==y") file e' ∧ e'.unplaced = e.unplaced := by
  intro token name k e
  have ht : IsExpression "-(a*b);" none (k.fill (.identifier (name "b" 4 5))) :=
    ⟨token .minus "-" 0 1, .ofRange "shell" 0 7, by decide⟩
  have hs : IsExpression "x==y" none e :=
    ⟨token .identifier "x" 0 1, .ofRange "shell" 0 4, by decide⟩
  exact ⟨ht, hs, parse_substitute "-(a*b);" "x==y" none none (by decide) k (name "b" 4 5) e ht hs
    (by decide)⟩

end Prattle
