import Prattle.Proofs.Completion
import Prattle.Proofs.Runs

/-!
# The nodes of an expression and their places

A tree keeps every token that it was read from but the parentheses: `Expr.nodeTokens` are the tokens of its
nodes, each operator between its operands or in front of its only one. `Expr.InPlace text` says where one
node stands: from the first to the last of the tokens in it, its parts side by side and not over its ends,
and its token where the text spells it.

* **The tokens of the nodes are those of the tree without its parentheses** (`Expr.Covers.filter_eq_nodeTokens`),
  and these are balanced (`Expr.Covers.balanced`).
* **Every node spans what its tokens span** (`Expr.Covers.spans`). The rest follows from the order of the
  tokens (`Expr.arranged_of_spans`).
* **An expression that was read from a text is in place at all its nodes** (`expression_in_place`).
-/

namespace Prattle

/-! ### Balanced parentheses -/

/-- The token opens or closes a group. -/
def Token.isParen (t : Token) : Bool :=
  t.kind = .leftParen || t.kind = .rightParen

/-- Nowhere more groups are closed than were opened before, and in the end as many. -/
structure Balanced (ts : List Token) : Prop where
  within : ∀ k, (ts.take k).countP (·.kind = .rightParen) ≤ (ts.take k).countP (·.kind = .leftParen)
  total : ts.countP (·.kind = .rightParen) = ts.countP (·.kind = .leftParen)

namespace Balanced

variable {ts us : List Token} {t l r : Token}

/-- One token that is no parenthesis is balanced. -/
theorem singleton (h : t.isParen = false) : Balanced [t] := by
  have hkind : t.kind ≠ .leftParen ∧ t.kind ≠ .rightParen := by simpa [Token.isParen] using h
  constructor
  · rintro (_ | k)
    · simp
    · simp [hkind.1, hkind.2]
  · simp [hkind.1, hkind.2]

/-- Balanced tokens behind balanced tokens are balanced. -/
theorem append (h : Balanced ts) (h' : Balanced us) : Balanced (ts ++ us) := by
  constructor
  · intro k
    have hts := h.within k
    have hus := h'.within (k - ts.length)
    rw [List.take_append, List.countP_append, List.countP_append]
    omega
  · rw [List.countP_append, List.countP_append, h.total, h'.total]

/-- Balanced tokens between parentheses are balanced. -/
theorem group (left : l.kind = .leftParen) (h : Balanced ts) (right : r.kind = .rightParen) :
    Balanced (l :: ts ++ [r]) := by
  constructor
  · rintro (_ | k)
    · simp
    · -- the last `)` may come one group too early for `ts`, but not before the first `(`
      have hts := h.within k
      have hlast : ([r].take (k - ts.length)).countP (·.kind = .rightParen) ≤ 1 := by
        refine Nat.le_trans List.countP_le_length ?_
        rw [List.length_take]
        exact Nat.min_le_right _ _
      rw [List.cons_append, List.take_succ_cons, List.take_append]
      simp only [List.countP_cons, List.countP_append, left, decide_true, if_true]
      simp only [reduceCtorEq, decide_false, Bool.false_eq_true, if_false]
      omega
  · simp [left, right, h.total]

end Balanced

/-! ### Nodes -/

namespace Span

/-- The first span ends where the second one starts, or before. -/
def Precedes (a b : Span) : Prop :=
  a.stop.offset ≤ b.start.offset

/-- The first span does not reach over the ends of the second. -/
def Within (a b : Span) : Prop :=
  b.start.offset ≤ a.start.offset ∧ a.stop.offset ≤ b.stop.offset

end Span

/-- The text of the token is the piece of the whole text that the span of the token cuts out. -/
def Token.StandsIn (text : String) (t : Token) : Prop :=
  ∃ before after, text = before ++ t.text ++ after ∧ before.utf8ByteSize = t.first ∧
    (before ++ t.text).utf8ByteSize = t.past

namespace Expr

/-- The tokens of the nodes from left to right: an operator stands between its operands, or in front of its
only one. -/
def nodeTokens : Expr → List Token
  | identifier id => [id.token]
  | integer t .. => [t]
  | boolean t .. => [t]
  | unary t _ e _ => t :: e.nodeTokens
  | binary t _ l r _ => l.nodeTokens ++ t :: r.nodeTokens

/-- The expression and all expressions in it, one for each node. -/
def subtrees : Expr → List Expr
  | unary t op e s => unary t op e s :: e.subtrees
  | binary t op l r s => binary t op l r s :: (l.subtrees ++ r.subtrees)
  | e => [e]

/-- The span of the node runs from the start of the first token in it to the end of the last one. -/
def Spans (e : Expr) : Prop :=
  ∃ first last, e.nodeTokens.head? = some first ∧ e.nodeTokens.getLast? = some last ∧
    e.span = ⟨first.span.start, last.span.stop⟩

/-- A leaf stands where its token does. The token of an operation stands beside its operands, and these
within the operation. -/
def Arranged : Expr → Prop
  | identifier id => id.span = id.token.span
  | integer t _ s => s = t.span
  | boolean t _ s => s = t.span
  | unary t _ e s => t.span.Precedes e.span ∧ e.span.Within s
  | binary t _ l r s =>
    l.span.Precedes t.span ∧ t.span.start.offset < t.span.stop.offset ∧ t.span.Precedes r.span ∧
      l.span.Within s ∧ r.span.Within s

/-- The node stands in the text where its tokens do. -/
structure InPlace (text : String) (e : Expr) : Prop where
  spans : e.Spans
  arranged : e.Arranged
  token : e.token.StandsIn text

/-- Every tree is among its subtrees. -/
theorem mem_subtrees_self (e : Expr) : e ∈ e.subtrees := by
  cases e <;> simp [subtrees]

/-- The token of a tree is among the tokens of its nodes. -/
theorem token_mem_nodeTokens (e : Expr) : e.token ∈ e.nodeTokens := by
  cases e <;> simp [nodeTokens, token]

/-- The tokens of a part stand together in the whole. -/
theorem nodeTokens_isInfix {d e : Expr} (h : d ∈ e.subtrees) : d.nodeTokens <:+: e.nodeTokens := by
  induction e with
  | identifier id => simp_all [subtrees]
  | integer t v s => simp_all [subtrees]
  | boolean t v s => simp_all [subtrees]
  | unary t op e s ih =>
    rcases List.mem_cons.mp h with rfl | h
    · exact List.infix_rfl
    · exact (ih h).trans (List.suffix_cons t _).isInfix
  | binary t op l r s ihl ihr =>
    rcases List.mem_cons.mp h with rfl | h
    · exact List.infix_rfl
    rcases List.mem_append.mp h with h | h
    · exact (ihl h).trans (List.prefix_append _ _).isInfix
    · have hright : r.nodeTokens <:+ l.nodeTokens ++ t :: r.nodeTokens :=
        (List.suffix_cons t _).trans (List.suffix_append _ _)
      exact (ihr h).trans hright.isInfix

/-- The subtrees of a subtree are subtrees of the tree. -/
theorem subtrees_subset {d e : Expr} (h : d ∈ e.subtrees) : d.subtrees ⊆ e.subtrees := by
  induction e with
  | identifier id => simp_all [subtrees]
  | integer t v s => simp_all [subtrees]
  | boolean t v s => simp_all [subtrees]
  | unary t op e s ih =>
    rcases List.mem_cons.mp h with rfl | h
    · exact List.Subset.refl _
    · exact fun x hx => List.mem_cons_of_mem _ (ih h hx)
  | binary t op l r s ihl ihr =>
    rcases List.mem_cons.mp h with rfl | h
    · exact List.Subset.refl _
    rcases List.mem_append.mp h with h | h
    · exact fun x hx => List.mem_cons_of_mem _ (List.mem_append_left _ (ihl h hx))
    · exact fun x hx => List.mem_cons_of_mem _ (List.mem_append_right _ (ihr h hx))

/-! ### What a tree covers -/

/-- A leaf is no parenthesis. -/
theorem isParen_of_primary {t : Token} {e : Expr} (h : t.primary = .ok e) : t.isParen = false := by
  rcases Token.primary_eq_ok h with ⟨v, hkind, -, -⟩ | ⟨hkind, -⟩ | ⟨hkind, -⟩ | ⟨hkind, -⟩
  all_goals simp [Token.isParen, hkind]

/-- A unary operator is no parenthesis. -/
theorem isParen_of_unary {t : Token} {op : UnaryOp} (h : op.kind = t.kind) : t.isParen = false := by
  cases op <;> simp [Token.isParen, ← h, UnaryOp.kind]

/-- A binary operator is no parenthesis. -/
theorem isParen_of_binary {t : Token} {op : BinaryOp} (h : op.kind = t.kind) : t.isParen = false := by
  cases op <;> simp [Token.isParen, ← h, BinaryOp.kind]

/-- A leaf has the one token that it was read from. -/
theorem nodeTokens_of_primary {t : Token} {e : Expr} (h : t.primary = .ok e) : e.nodeTokens = [t] := by
  rcases Token.primary_eq_ok h with ⟨v, -, -, rfl⟩ | ⟨-, rfl⟩ | ⟨-, rfl⟩ | ⟨-, rfl⟩
  all_goals rfl

/-- **The parentheses of an expression are balanced.** -/
theorem Covers.balanced {e : Expr} {ts : List Token} (h : e.Covers ts) : Balanced ts := by
  induction h with
  | leaf primary => exact .singleton (isParen_of_primary primary)
  | group left inner right ih => exact .group left ih right
  | unary kind operand ih => exact .append (.singleton (isParen_of_unary kind)) ih
  | binary left kind right ihl ihr =>
    exact .append ihl (.append (.singleton (isParen_of_binary kind)) ihr)

/-- **The tokens of the nodes are those of the expression, less the parentheses.** -/
theorem Covers.filter_eq_nodeTokens {e : Expr} {ts : List Token} (h : e.Covers ts) :
    ts.filter (!·.isParen) = e.nodeTokens := by
  induction h with
  | leaf primary =>
    rw [nodeTokens_of_primary primary]
    simp [isParen_of_primary primary]
  | group left inner right ih => simp [Token.isParen, left, right, ← ih]
  | unary kind operand ih => simp [nodeTokens, isParen_of_unary kind, ih]
  | binary left kind right ihl ihr => simp [nodeTokens, isParen_of_binary kind, ihl, ihr]

/-- **Every node spans what its tokens span.** -/
theorem Covers.spans {e : Expr} {ts : List Token} (h : e.Covers ts) : ∀ d ∈ e.subtrees, d.Spans := by
  induction h with
  | leaf primary =>
    rcases Token.primary_eq_ok primary with ⟨v, -, -, rfl⟩ | ⟨-, rfl⟩ | ⟨-, rfl⟩ | ⟨-, rfl⟩
    all_goals
      intro d hd
      rw [List.mem_singleton.mp hd]
      exact ⟨_, _, rfl, rfl, rfl⟩
  | group left inner right ih => exact ih
  | @unary t op ts e kind operand ih =>
    obtain ⟨first, last, -, hlast, hspan⟩ := ih e e.mem_subtrees_self
    refine List.forall_mem_cons.mpr ⟨⟨t, last, rfl, ?_, ?_⟩, ih⟩
    · rw [nodeTokens, List.getLast?_cons, hlast]
      rfl
    · rw [span, hspan]
  | @binary t op ls rs l r left kind right ihl ihr =>
    obtain ⟨first, mid, hfirst, -, hspan⟩ := ihl l l.mem_subtrees_self
    obtain ⟨mid', last, -, hlast, hspan'⟩ := ihr r r.mem_subtrees_self
    refine List.forall_mem_cons.mpr ⟨⟨first, last, ?_, ?_, ?_⟩, List.forall_mem_append.mpr ⟨ihl, ihr⟩⟩
    · rw [nodeTokens, List.head?_append, hfirst]
      rfl
    · rw [nodeTokens, List.getLast?_append, List.getLast?_cons, hlast]
      rfl
    · rw [span, hspan, hspan']

end Expr

/-! ### Tokens in their order -/

/-- The tokens stand one behind the other, and none of them is empty. -/
structure InOrder (ts : List Token) : Prop where
  ordered : ts.Pairwise fun t u => t.past ≤ u.first
  nonempty : ∀ t ∈ ts, t.first < t.past

namespace InOrder

variable {ts us : List Token} {t first last : Token}

/-- Some of the tokens in order are in order. -/
theorem sublist (h : InOrder ts) (hsub : us.Sublist ts) : InOrder us :=
  ⟨h.ordered.sublist hsub, fun t ht => h.nonempty t (hsub.subset ht)⟩

/-- No token in order starts in front of the first one. -/
theorem first_le (h : InOrder ts) (hfirst : ts.head? = some first) (ht : t ∈ ts) :
    first.first ≤ t.first := by
  obtain ⟨us, rfl⟩ := List.head?_eq_some_iff.mp hfirst
  rcases List.mem_cons.mp ht with rfl | ht
  · exact Nat.le_refl _
  · have hlt := h.nonempty first List.mem_cons_self
    have hle := List.rel_of_pairwise_cons h.ordered ht
    omega

/-- No token in order ends behind the last one. -/
theorem past_le (h : InOrder ts) (hlast : ts.getLast? = some last) (ht : t ∈ ts) :
    t.past ≤ last.past := by
  obtain ⟨us, rfl⟩ := List.getLast?_eq_some_iff.mp hlast
  rcases List.mem_append.mp ht with ht | ht
  · have hlt := h.nonempty last (List.mem_append_right _ (List.mem_singleton_self _))
    have hle := (List.pairwise_append.mp h.ordered).2.2 t ht last (List.mem_singleton_self _)
    omega
  · rw [List.mem_singleton.mp ht]

end InOrder

namespace Span

variable {a b : Span}

/-- One span precedes another if it stops no later than the other one starts. -/
theorem precedes_iff : a.Precedes b ↔ a.stop.offset.toNat ≤ b.start.offset.toNat :=
  UInt32.le_iff_toNat_le

/-- One span is within another if it starts no earlier and stops no later. -/
theorem within_iff : a.Within b ↔ b.start.offset.toNat ≤ a.start.offset.toNat ∧
    a.stop.offset.toNat ≤ b.stop.offset.toNat := by
  rw [Within, UInt32.le_iff_toNat_le, UInt32.le_iff_toNat_le]

end Span

namespace Expr

variable {d e : Expr}

/-- A part does not reach over the ends of the whole. -/
theorem Spans.within (hd : d.Spans) (he : e.Spans) (horder : InOrder e.nodeTokens)
    (hsub : d.nodeTokens ⊆ e.nodeTokens) : d.span.Within e.span := by
  obtain ⟨first, last, hfirst, hlast, hspan⟩ := he
  obtain ⟨first', last', hfirst', hlast', hspan'⟩ := hd
  rw [hspan, hspan', Span.within_iff]
  exact ⟨horder.first_le hfirst (hsub (List.mem_of_head? hfirst')),
    horder.past_le hlast (hsub (List.mem_of_getLast? hlast'))⟩

/-- **Where every node spans its tokens and these are in order, every node is arranged.** -/
theorem arranged_of_spans (h : ∀ d ∈ e.subtrees, d.Spans) (horder : InOrder e.nodeTokens) :
    e.Arranged := by
  have hself := h e e.mem_subtrees_self
  have hleaf : ∀ t : Token, e.nodeTokens = [t] → e.span = t.span := by
    intro t ht
    obtain ⟨first, last, hfirst, hlast, hspan⟩ := hself
    rw [ht] at hfirst hlast
    cases hfirst
    cases hlast
    exact hspan
  cases e with
  | identifier id => exact hleaf _ rfl
  | integer t v s => exact hleaf _ rfl
  | boolean t v s => exact hleaf _ rfl
  | unary t op e s =>
    have hspans := h e (List.mem_cons_of_mem _ e.mem_subtrees_self)
    refine ⟨?_, hspans.within hself horder fun u hu => List.mem_cons_of_mem _ hu⟩
    obtain ⟨first, last, hfirst, -, hspan⟩ := hspans
    rw [Span.precedes_iff, hspan]
    exact List.rel_of_pairwise_cons horder.ordered (List.mem_of_head? hfirst)
  | binary t op l r s =>
    have hleft := h l (List.mem_cons_of_mem _ (List.mem_append_left _ l.mem_subtrees_self))
    have hright := h r (List.mem_cons_of_mem _ (List.mem_append_right _ r.mem_subtrees_self))
    have hinl : l.nodeTokens ⊆ (binary t op l r s).nodeTokens := fun u hu => List.mem_append_left _ hu
    have hinr : r.nodeTokens ⊆ (binary t op l r s).nodeTokens := fun u hu =>
      List.mem_append_right _ (List.mem_cons_of_mem _ hu)
    obtain ⟨-, hbehind, hfront⟩ := List.pairwise_append.mp horder.ordered
    refine ⟨?_, ?_, ?_, hleft.within hself horder hinl, hright.within hself horder hinr⟩
    · obtain ⟨first, last, -, hlast, hspan⟩ := hleft
      rw [Span.precedes_iff, hspan]
      exact hfront last (List.mem_of_getLast? hlast) t List.mem_cons_self
    · rw [UInt32.lt_iff_toNat_lt]
      exact horder.nonempty t (List.mem_append_right _ List.mem_cons_self)
    · obtain ⟨first, last, hfirst, -, hspan⟩ := hright
      rw [Span.precedes_iff, hspan]
      exact List.rel_of_pairwise_cons hbehind (List.mem_of_head? hfirst)

end Expr

/-! ### Expressions of a text -/

section texts

variable {text : String} {file : Option String}

/-- The text of a legal token is the piece of the text that the token spans. -/
theorem IsTokenization.standsIn {label : String} {p : Nat} {ts : List Token} {t : Token}
    (h : IsTokenization text label p ts) (hsize : text.utf8ByteSize < 2 ^ 32) (ht : t ∈ ts)
    (hend : t.kind ≠ .endOfInput) (hkind : t.kind ≠ .illegal) : t.StandsIn text := by
  obtain ⟨hspells, hbytes⟩ : Spells t.kind t.text ∧
      bytes t.text = (bytes text).extract t.first t.past := by
    rcases h.lexemes t ht hend with hspells | ⟨b, -, -, hillegal, -⟩
    · exact hspells
    · exact absurd hillegal hkind
  have htext : t.text ≠ "\ufffd" := by
    intro hreplaced
    have hascii := hspells.isAscii
    rw [hreplaced] at hascii
    exact absurd (hascii '\ufffd' (by decide)) (by decide)
  obtain ⟨before, after, hsplit, hbefore⟩ := h.exists_append hsize ht htext
  refine ⟨before, after, hsplit, hbefore, ?_⟩
  have hlength := congrArg List.length hbytes
  have hlt := h.nonempty t ht hend
  have hle := h.past_le hsize ht
  rw [length_bytes, List.extract_eq_take_drop, List.length_take, List.length_drop,
    length_bytes] at hlength
  rw [String.utf8ByteSize_append]
  omega

/-- The tokens that an expression covers are those from the first to the last of its cursors. -/
theorem Grammar.exists_run_of_expression {c c' : Cursor} {bp : BindingPower} {e : Expr}
    (hc : c.Terminated) (h : standard.expression bp c = ⟨.ok e, c'⟩) :
    ∃ m, c' = c.forward m ∧ e.Covers (c.tokens.take (m + 1)) ∧
      (c.tokens.take (m + 1)).head? = some c.current ∧
      (c.tokens.take (m + 1)).getLast? = some c'.current ∧ m < c.tokens.length := by
  obtain ⟨ts, hts, hcovers⟩ := exists_tokens_of_expression hc h
  obtain ⟨m, hm⟩ := standard.follows_expression bp c
  rw [h] at hm
  have hm : c' = c.forward m := hm
  have hend : c'.atEnd = false := (terminated_of_expression hc h).atEnd_eq_false rfl
    (steps_of_expression standard_within_text h)
  have htokens := Cursor.tokens_of_not_atEnd hend
  -- what is left of the tokens says how many were taken
  have hlength : ts.length = m := by
    have htaken := congrArg List.length hts
    have hleft := congrArg List.length htokens
    rw [hm, Cursor.tokens_forward, List.length_drop, List.length_cons] at hleft
    rw [List.length_append, List.length_cons, hm] at htaken
    omega
  have hrun : c.tokens.take (m + 1) = ts ++ [c'.current] := by
    rw [hts, ← hlength, List.take_length_add_append]
    rfl
  refine ⟨m, hm, ?_⟩
  rw [hrun]
  refine ⟨hcovers, ?_, List.getLast?_concat, ?_⟩
  · rcases ts with _ | ⟨t, ts⟩
    · exact congrArg some (Cursor.current_of_tokens hts).symm
    · exact congrArg some (Cursor.current_of_tokens hts).symm
  · rw [hts, List.length_append, hlength, List.length_cons]
    omega

/-- **An expression keeps every token that it was read from, in their order and with exact spans**: the
tokens from the current one to the one that the reading ends on are, less the parentheses, the tokens of
its nodes, the parentheses are balanced, and every node is in place. -/
theorem expression_in_place (text : String) (file : Option String)
    (hsize : text.utf8ByteSize < 2 ^ 32) (n : Nat) (bp : BindingPower) {e : Expr} {c' : Cursor}
    (h : Grammar.standard.expression bp ((Cursor.ofText text file).forward n) = ⟨.ok e, c'⟩) :
    ∃ m run, c' = (Cursor.ofText text file).forward m ∧
      run = (tokenize text file).extract n (m + 1) ∧
      run.head? = some ((Cursor.ofText text file).forward n).current ∧
      run.getLast? = some c'.current ∧
      e.Covers run ∧ run.filter (!·.isParen) = e.nodeTokens ∧ Balanced run ∧
      ∀ d ∈ e.subtrees, d.InPlace text := by
  obtain ⟨m, hm, hcovers, hhead, hlast, hlt⟩ :=
    Grammar.exists_run_of_expression ((Cursor.terminated_ofText text file).forward n) h
  rw [Cursor.tokens_forward] at hcovers hhead hlast hlt
  rw [Cursor.forward_forward] at hm
  rw [List.length_drop] at hlt
  set run := ((Cursor.ofText text file).tokens.drop n).take (m + 1) with hrun
  have hextract : run = (tokenize text file).extract n (n + m + 1) := by
    rw [tokenize_eq, List.extract_eq_take_drop, List.drop_append_of_le_length (by omega),
      List.take_append_of_le_length (by rw [List.length_drop]; omega), hrun]
    congr 1
    omega
  have htokenization := isTokenization_tokenize text file hsize
  have hmem : ∀ t ∈ run, t ∈ tokenize text file ∧ t.kind ≠ .endOfInput := by
    intro t ht
    have htokens := List.mem_of_mem_drop (List.mem_of_mem_take ht)
    rw [tokenize_eq]
    exact ⟨List.mem_append_left _ htokens, (Cursor.terminated_ofText text file).tokens t htokens⟩
  have horder : InOrder run := by
    refine ⟨htokenization.ordered.sublist ?_, fun t ht =>
      htokenization.nonempty t (hmem t ht).1 (hmem t ht).2⟩
    rw [hextract]
    exact (List.take_sublist _ _).trans (List.drop_sublist _ _)
  have hnodes := hcovers.filter_eq_nodeTokens
  refine ⟨n + m, run, hm, hextract, hhead, hlast, hcovers, hnodes, hcovers.balanced, ?_⟩
  intro d hd
  have hinfix := Expr.nodeTokens_isInfix hd
  rw [← hnodes] at hinfix
  have hsub := hinfix.sublist.trans List.filter_sublist
  refine ⟨hcovers.spans d hd, ?_, ?_⟩
  · exact Expr.arranged_of_spans (fun d' hd' => hcovers.spans d' (Expr.subtrees_subset hd hd'))
      (horder.sublist hsub)
  · have htoken := hsub.subset d.token_mem_nodeTokens
    exact htokenization.standsIn hsize (hmem _ htoken).1 (hmem _ htoken).2
      (hcovers.derives.kind_ne_illegal _ htoken)

/-- Behind a character beyond ASCII a product whose right operand is a group with another group in it: the
reading ends on the `)` of the outer one. -/
theorem expression_in_place_group :
    "é -a * ((b)\n+ 12);".utf8ByteSize < 2 ^ 32 ∧
    ∃ e c', Grammar.standard.expression .lowest ((Cursor.ofText "é -a * ((b)\n+ 12);" none).forward 2) =
        ⟨.ok e, c'⟩ ∧
      e.render = "((-a) * (b + 12))" ∧
      ∃ m run, c' = (Cursor.ofText "é -a * ((b)\n+ 12);" none).forward m ∧
        run = (tokenize "é -a * ((b)\n+ 12);" none).extract 2 (m + 1) ∧
        run.getLast? = some c'.current ∧ c'.current.text = ")" ∧
        run.filter (!·.isParen) = e.nodeTokens ∧ Balanced run ∧
        ∀ d ∈ e.subtrees, d.InPlace "é -a * ((b)\n+ 12);" := by
  have hsize : "é -a * ((b)\n+ 12);".utf8ByteSize < 2 ^ 32 := by decide
  have hread : ∃ e, Grammar.standard.expression .lowest
      ((Cursor.ofText "é -a * ((b)\n+ 12);" none).forward 2) =
        ⟨.ok e, (Cursor.ofText "é -a * ((b)\n+ 12);" none).forward 11⟩ ∧
      e.render = "((-a) * (b + 12))" := by
    refine ⟨_, by rfl, by decide⟩
  obtain ⟨e, hread, hrender⟩ := hread
  obtain ⟨m, run, hm, hrun, -, hlast, -, hnodes, hbalanced, hplace⟩ :=
    expression_in_place "é -a * ((b)\n+ 12);" none hsize 2 .lowest hread
  exact ⟨hsize, e, _, hread, hrender, m, run, hm, hrun, hlast, by decide, hnodes, hbalanced, hplace⟩

end texts

end Prattle
