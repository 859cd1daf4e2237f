import Prattle.Proofs.Runs

/-!
# A parser keeps its place, whatever is asked of it

A parser can be asked for a whole program as well as for the operand under its cursor, in any order, and its
grammar can be changed in between. `Parser.Call` is one such request and `Parser.perform` meets it.

* **Whatever is asked, a parser only moves forward** (`Parser.follows_perform`), and scans the tokens that
  come into view (`Parser.Follows`). So after any calls it stands in its text as if it had stepped there one
  token at a time (`Parser.Window`, `Parser.window_of_follows`).
* **Errors are only ever added**, and only by a call that says so or that reads statements
  (`Parser.errors_perform`): one for each statement that was dropped or left its place empty
  (`Parser.length_errors`).
* **Both hold of every run of calls** (`perform_after_run`).
-/

namespace Prattle

/-! ### The tokens of a text, for ever -/

/-- The token at a place in a text. From the end on it is the end token. -/
def tokenAt (text : String) (file : Option String) (i : Nat) : Token :=
  (tokenize text file).getD i (.endOf text (file.getD Scanner.defaultLabel))

namespace Scanner

/-- While a token is left, the next token is the one that a step cuts off. -/
theorem nextToken_of_step? {s s' : Scanner} {t : Token} (h : s.step? = some (t, s')) :
    s.nextToken = (t, s') := by
  rw [nextToken, h]
  rfl

/-- Where no token is left, the next token is the end token, and only blanks are passed. -/
theorem nextToken_of_end {s : Scanner} (h : s.step? = none) :
    s.nextToken = (s.endToken, s.skipBlanks) := by
  rw [nextToken, h]
  rfl

/-- The next token is the first one that is left, or else the end token. -/
theorem nextToken_fst (s : Scanner) : s.nextToken.1 = s.tokens.headD s.endToken := by
  rcases hs : s.step? with _ | ⟨t, s'⟩
  · rw [nextToken_of_end hs, tokens_of_end hs]
    rfl
  · rw [nextToken_of_step? hs, tokens_of_step? hs]
    rfl

/-- Where no token is left, skipping the blanks leads to the end of the text. -/
theorem skipBlanks_of_end {s : Scanner} (h : s.step? = none) :
    s.skipBlanks = { s with rest := [], offset := s.offset + s.rest.length } := by
  have hrest : s.skipBlanks.rest = [] := by
    rcases hrest : s.rest.dropWhile isBlank with _ | ⟨b, rest⟩
    · exact hrest
    · rw [step?_of_cons hrest] at h
      cases h
  have hoffset : s.skipBlanks.offset = s.offset + s.rest.length := by
    rw [← s.offset_add_length_skipBlanks, hrest, List.length_nil, Nat.add_zero]
  rw [← hrest, ← hoffset]
  rfl

/-- Taking the next token leaves the others. -/
theorem tokens_nextToken (s : Scanner) : s.nextToken.2.tokens = s.tokens.tail := by
  rcases hs : s.step? with _ | ⟨t, s'⟩
  · rw [nextToken_of_end hs, tokens_of_end hs, skipBlanks_of_end hs]
    rfl
  · rw [nextToken_of_step? hs, tokens_of_step? hs]
    rfl

/-- **No token moves the end of the text**, and neither does the end token. -/
theorem endToken_nextToken (s : Scanner) : s.nextToken.2.endToken = s.endToken := by
  rcases hs : s.step? with _ | ⟨t, s'⟩
  · rw [nextToken_of_end hs, endToken, endToken, s.offset_add_length_skipBlanks]
    rfl
  · rw [nextToken_of_step? hs]
    exact step?_endToken hs

/-- The scanner after the next `n` tokens. -/
def after (s : Scanner) : Nat → Scanner
  | 0 => s
  | n + 1 => (s.after n).nextToken.2

/-- Taking some tokens and then more is taking them all. -/
theorem after_after (s : Scanner) (m n : Nat) : (s.after m).after n = s.after (m + n) := by
  induction n with
  | zero => rfl
  | succ n ih => rw [after, ih, ← Nat.add_assoc, after]

/-- However many tokens are taken, the end of the text stays where it is. -/
theorem endToken_after (s : Scanner) (n : Nat) : (s.after n).endToken = s.endToken := by
  induction n with
  | zero => rfl
  | succ n ih => rw [after, endToken_nextToken, ih]

/-- Taking tokens drops them from those that are left. -/
theorem tokens_after (s : Scanner) (n : Nat) : (s.after n).tokens = s.tokens.drop n := by
  induction n with
  | zero => rfl
  | succ n ih => rw [after, tokens_nextToken, ih, List.tail_drop]

end Scanner

variable {text : String} {file : Option String}

/-- The tokens of a text are those of its first cursor, and its end token behind them for ever. -/
theorem Cursor.getD_ofText (i : Nat) :
    (ofText text file).tokens.getD i (ofText text file).eof = tokenAt text file i := by
  have heof : (ofText text file).eof = .endOf text (file.getD Scanner.defaultLabel) := eof_ofText text file
  have htokens : tokenize text file = (ofText text file).tokens ++ [(ofText text file).eof] := rfl
  rw [tokenAt, htokens, ← heof, List.getD_eq_getElem?_getD, List.getD_eq_getElem?_getD]
  rcases Nat.lt_or_ge i (ofText text file).tokens.length with hlt | hge
  · rw [List.getElem?_append_left hlt]
  · rw [List.getElem?_append_right hge, List.getElem?_eq_none hge]
    rcases i - (ofText text file).tokens.length with _ | n
    · rfl
    · rfl

/-- The token under a cursor is the token at its place. -/
theorem Cursor.current_forward_ofText (i : Nat) :
    ((ofText text file).forward i).current = tokenAt text file i := by
  rw [← getD_ofText, current, tokens_forward, eof_forward, List.headD_eq_head?_getD, List.head?_drop,
    List.getD_eq_getElem?_getD]

/-- **Behind an end token there are only end tokens.** -/
theorem tokenAt_of_endOfInput {i j : Nat} (hij : i ≤ j)
    (h : (tokenAt text file i).kind = .endOfInput) : tokenAt text file j = tokenAt text file i := by
  rw [← Cursor.current_forward_ofText] at h ⊢
  rw [← Cursor.current_forward_ofText]
  set c := Cursor.ofText text file
  have hnil : c.tokens.drop i = [] := by
    rcases htokens : c.tokens.drop i with _ | ⟨t, more⟩
    · rfl
    · have ht : t ∈ c.tokens := List.mem_of_mem_drop (htokens ▸ List.mem_cons_self)
      have hcurrent : (c.forward i).current = t := by simp [Cursor.current, htokens]
      rw [hcurrent] at h
      exact absurd h ((Cursor.terminated_ofText text file).tokens t ht)
  have hlater : c.tokens.drop j = [] := by
    rw [← Nat.add_sub_cancel' hij, ← List.drop_drop, hnil, List.drop_nil]
  simp [Cursor.current, hnil, hlater]

/-- **What a scanner gives is the text, token by token.** -/
theorem Scanner.nextToken_after_ofText (i : Nat) :
    ((ofText text file).after i).nextToken.1 = tokenAt text file i := by
  rw [nextToken_fst, tokens_after, endToken_after, ← Cursor.current_forward_ofText]
  rfl

/-! ### Where a parser stands -/

/-- The token that was scanned. -/
def Log.Record.token? : Log.Record → Option Token
  | scanned t => some t
  | _ => none

/-- The tokens are read back off the records of their scanning. -/
theorem Log.filterMap_token?_scanned (ts : List Token) :
    (ts.map Record.scanned).filterMap Record.token? = ts := by
  rw [List.filterMap_map]
  exact List.filterMap_some

namespace Parser

variable {p q r : Parser}

/-- The tokens that the parser has scanned. -/
def scanned (p : Parser) : List Token :=
  p.log.toList.filterMap Log.Record.token?

/-- The parser stands on the token at place `i` and sees the next one. It has scanned these two and those
in front of them, and what is left for it to scan is what a scanner has left that gave as many tokens: one
after another the tokens of the text behind those two, and from its end on the end token. -/
structure Window (text : String) (file : Option String) (p : Parser) (i : Nat) : Prop where
  current : p.cursor.current = tokenAt text file i
  lookahead : p.cursor.lookahead = tokenAt text file (i + 1)
  scanned : p.scanned = (tokenize text file).dropLast.take (i + 2)
  left : p.cursor.tokens.drop 2 = ((Scanner.ofText text file).after (i + 2)).tokens
  leftEnd : p.cursor.eof = ((Scanner.ofText text file).after (i + 2)).endToken
  next : ∀ k, (p.cursor.tokens.drop 2).getD k p.cursor.eof = tokenAt text file (i + 2 + k)

/-- The parser is where another one gets by stepping forward, and has scanned what came into view on the
way. -/
def Follows (q p : Parser) : Prop :=
  ∃ n, q.cursor = p.cursor.forward n ∧
    q.scanned = p.scanned ++ (p.cursor.tokens.drop window).take n

/-- A parser follows itself. -/
theorem Follows.refl (p : Parser) : p.Follows p :=
  ⟨0, p.cursor.forward_zero.symm, by rw [List.take_zero, List.append_nil]⟩

/-- Following is transitive, and what came into view adds up. -/
theorem Follows.trans (h : r.Follows q) (h' : q.Follows p) : r.Follows p := by
  obtain ⟨m, hcursor, hscanned⟩ := h'
  obtain ⟨n, hcursor', hscanned'⟩ := h
  refine ⟨m + n, ?_, ?_⟩
  · rw [hcursor', hcursor, Cursor.forward_forward]
  · rw [hscanned', hscanned, hcursor, Cursor.tokens_forward, List.append_assoc, List.take_add,
      List.drop_drop, List.drop_drop, Nat.add_comm m window]

/-- A parser that follows another one is no less far in its text. -/
theorem Follows.index_le (h : q.Follows p) : p.cursor.index ≤ q.cursor.index := by
  obtain ⟨n, hcursor, -⟩ := h
  rw [hcursor]
  exact Nat.le_add_right _ _

/-- A parser that only its grammar, its errors or what else is logged tell from another one follows it. -/
theorem Follows.of_eq (hcursor : q.cursor = p.cursor) (hscanned : q.scanned = p.scanned) :
    q.Follows p := by
  obtain ⟨n, hn, hrefl⟩ := Follows.refl p
  exact ⟨n, hcursor.trans hn, hscanned.trans hrefl⟩

/-- A parser that moves on scans the tokens that come into view, and no others. -/
theorem scanned_moveTo (p : Parser) (n : Nat) :
    (p.moveTo (p.cursor.forward n)).scanned =
      p.scanned ++ (p.cursor.tokens.drop window).take n := by
  rw [scanned, moveTo, Cursor.index_forward, Nat.add_sub_cancel_left]
  dsimp only
  rw [Array.toList_appendList, List.filterMap_append, Log.filterMap_token?_scanned]
  rfl

/-- A fresh parser has scanned the tokens of its window. -/
theorem scanned_ofText (text : String) (file : Option String) :
    (ofText text file).scanned = (Cursor.ofText text file).tokens.take window :=
  Log.filterMap_token?_scanned _

/-- A parser that moves forward follows itself. -/
theorem follows_moveTo {c : Cursor} {n : Nat} (h : c = p.cursor.forward n) : (p.moveTo c).Follows p := by
  subst h
  exact ⟨n, rfl, p.scanned_moveTo n⟩

/-- A parser that takes one step follows itself. -/
theorem follows_advance (p : Parser) : p.advance.Follows p :=
  follows_moveTo rfl

/-- Recording an error scans nothing. -/
theorem scanned_record (p : Parser) (e : SyntaxError) : (p.record e).scanned = p.scanned := by
  rw [scanned, record, Array.toList_push, List.filterMap_append]
  exact List.append_nil _

/-- Announcing a statement scans nothing. -/
theorem scanned_announce (p : Parser) (s : Stmt) : (p.announce s).scanned = p.scanned := by
  rw [scanned, announce, Array.toList_push, List.filterMap_append]
  exact List.append_nil _

/-- Recording an error leaves a parser where it is. -/
theorem follows_record (p : Parser) (e : SyntaxError) : (p.record e).Follows p :=
  .of_eq rfl (p.scanned_record e)

/-- Announcing a statement leaves a parser where it is. -/
theorem follows_announce (p : Parser) (s : Stmt) : (p.announce s).Follows p :=
  .of_eq rfl (p.scanned_announce s)

/-- **A parser that follows the start of a text stands in that text.** -/
theorem window_of_follows (h : p.Follows (.ofText text file)) :
    p.Window text file p.cursor.index := by
  obtain ⟨n, hcursor, hscanned⟩ := h
  have hcursor : p.cursor = (Cursor.ofText text file).forward n := hcursor
  have hindex : p.cursor.index = n := by
    rw [hcursor]
    exact Nat.zero_add n
  rw [hindex]
  refine ⟨?_, ?_, ?_, ?_, ?_, ?_⟩
  · rw [hcursor, Cursor.current_forward_ofText]
  · rw [← Cursor.current_advance, hcursor, Cursor.advance, Cursor.forward_forward,
      Cursor.current_forward_ofText]
  · have htokens : (tokenize text file).dropLast = (Cursor.ofText text file).tokens :=
      List.dropLast_concat
    rw [hscanned, scanned_ofText, htokens, Nat.add_comm n 2, List.take_add]
    rfl
  · rw [hcursor, Scanner.tokens_after, Cursor.tokens_forward, List.drop_drop]
    rfl
  · rw [hcursor, Scanner.endToken_after]
    rfl
  · intro k
    rw [hcursor, Cursor.tokens_forward, List.drop_drop, Cursor.eof_forward]
    rw [← Cursor.getD_ofText, List.getD_eq_getElem?_getD, List.getElem?_drop, List.getD_eq_getElem?_getD]

end Parser

/-! ### What readings leave behind -/

namespace Reading

variable {α : Type}

/-- The reading started at `c` and never moved back, neither up to its failure nor from there. -/
def Follows (r : Reading α) (c : Cursor) : Prop :=
  ∃ m n, (∀ f ∈ r.failure?, f.cursor = c.forward m) ∧ r.cursor = c.forward (m + n)

/-- A reading without a failure has only its last cursor to answer for. -/
theorem Follows.of_success {r : Reading α} {c : Cursor} {n : Nat} (h : r.failure? = none)
    (hcursor : r.cursor = c.forward n) : r.Follows c := by
  refine ⟨0, n, ?_, ?_⟩
  · rw [h]
    rintro f ⟨⟩
  · rw [hcursor, Nat.zero_add]

/-- A reading that failed somewhere ahead and went on from there never moved back. -/
theorem Follows.of_failure {r : Reading α} {c : Cursor} {f : Failure} {m n : Nat}
    (h : r.failure? = some f) (hf : f.cursor = c.forward m) (hcursor : r.cursor = f.cursor.forward n) :
    r.Follows c := by
  refine ⟨m, n, ?_, ?_⟩
  · rw [h]
    rintro _ ⟨⟩
    exact hf
  · rw [hcursor, hf, Cursor.forward_forward]

end Reading

namespace Grammar

/-- **An expression statement never moves back**, and meets one error if its place is empty. -/
theorem expressionStatement_spec (g : Grammar) (c : Cursor) :
    (g.expressionStatement c).Follows c ∧
      ((g.expressionStatement c).failure?.map (·.error)).toList.length =
        if (g.expressionStatement c).value.isEmptyExpression then 1 else 0 := by
  obtain ⟨m, hm⟩ := g.follows_expression .lowest c
  rcases hr : g.expression .lowest c with ⟨err | e, c'⟩
  · rw [hr] at hm
    simp only [expressionStatement, hr]
    exact ⟨.of_failure rfl hm rfl, rfl⟩
  · rw [hr] at hm
    have hm : c' = c.forward m := hm
    obtain ⟨n, hn⟩ := passSemicolon_eq_forward c'
    simp only [expressionStatement, hr]
    refine ⟨.of_success rfl (n := m + n) ?_, rfl⟩
    rw [hn, hm, Cursor.forward_forward]

/-- What the rule of a keyword reads is no expression statement, so its place is never empty. -/
theorem isEmptyExpression_of_rule {rule : StatementRule} {s : Stmt} {c c' : Cursor}
    (h : ruleStatement rule c = ⟨.ok s, c'⟩) : s.isEmptyExpression = false := by
  cases rule with
  | binding =>
    obtain ⟨-, -, -, rfl⟩ := Cursor.binding_eq_ok_iff.mp h
    rfl
  | returning =>
    cases h
    rfl

/-- **A statement never moves back**, and meets one error if it was dropped or its place is empty. -/
theorem statement_spec (g : Grammar) (c : Cursor) :
    (g.statement c).Follows c ∧
      ((g.statement c).failure?.map (·.error)).toList.length =
        if (g.statement c).value.all Stmt.isEmptyExpression then 1 else 0 := by
  rcases hrule : g.statement? c.current.kind with _ | rule
  · have hstatement : g.statement c =
        ⟨some (g.expressionStatement c).value, (g.expressionStatement c).failure?,
          (g.expressionStatement c).cursor⟩ := by
      simp only [statement, hrule]
    rw [hstatement]
    exact g.expressionStatement_spec c
  · obtain ⟨m, hm⟩ := follows_ruleStatement rule c
    rcases hr : ruleStatement rule c with ⟨err | s, c'⟩
    · rw [hr] at hm
      rw [statement_of_rule_error hrule hr]
      exact ⟨.of_failure rfl hm c'.forward_zero.symm, rfl⟩
    · rw [hr] at hm
      rw [statement_of_rule_ok hrule hr]
      refine ⟨.of_success rfl hm, ?_⟩
      rw [Option.all_some, isEmptyExpression_of_rule hr]
      rfl

/-- **There are as many errors as statements that were dropped or left their place empty.** -/
theorem length_errors_statementsUpTo (g : Grammar) (n : Nat) (c : Cursor) :
    (Reading.errors (g.statementsUpTo n c)).length =
      (g.statementsUpTo n c).countP fun r => r.value.all Stmt.isEmptyExpression := by
  induction n generalizing c with
  | zero => rfl
  | succ n ih =>
    rw [statementsUpTo]
    split
    · rfl
    · rw [Reading.errors_cons, List.length_append, (g.statement_spec c).2, ih, List.countP_cons,
        Nat.add_comm]

end Grammar

/-! ### Calls -/

namespace Parser

variable {p q : Parser}

/-- Taking a reading that never moved back leads a parser forward to where the reading ended. -/
theorem follows_take {α : Type} {r : Reading α} (h : r.Follows p.cursor) :
    (p.take r).2.Follows p ∧ (p.take r).2.cursor = r.cursor := by
  obtain ⟨m, n, hfailure, hcursor⟩ := h
  unfold take
  rcases hr : r.failure? with _ | f
  · exact ⟨follows_moveTo hcursor, rfl⟩
  · have hf : f.cursor = p.cursor.forward m := hfailure f hr
    refine ⟨?_, rfl⟩
    have hmoved : ((p.moveTo f.cursor).record f.error).Follows p :=
      (follows_record _ _).trans (follows_moveTo hf)
    refine (follows_moveTo (n := n) ?_).trans hmoved
    show r.cursor = f.cursor.forward n
    rw [hcursor, hf, Cursor.forward_forward]

/-- Taking a statement leads a parser forward, to the token behind the statement. -/
theorem follows_pass {r : Reading (Option Stmt)} (h : r.Follows p.cursor) :
    (p.pass r).Follows p ∧ (p.pass r).cursor = r.cursor.advance := by
  obtain ⟨hfollows, hcursor⟩ := follows_take h
  unfold pass
  rcases hs : p.take r with ⟨s?, q⟩
  rw [hs] at hfollows hcursor
  rw [← show q.cursor = r.cursor from hcursor]
  rcases s? with _ | s
  · exact ⟨(follows_advance q).trans hfollows, rfl⟩
  · exact ⟨(follows_advance _).trans ((follows_announce q s).trans hfollows), rfl⟩

/-- Taking statement after statement only leads a parser forward. -/
theorem follows_foldl_pass (g : Grammar) (n : Nat) (p : Parser) :
    ((g.statementsUpTo n p.cursor).foldl pass p).Follows p := by
  induction n generalizing p with
  | zero => exact .refl p
  | succ n ih =>
    rw [Grammar.statementsUpTo]
    split
    · exact .refl p
    · obtain ⟨hfollows, hcursor⟩ := follows_pass (g.statement_spec p.cursor).1
      have hrest := ih (p.pass (g.statement p.cursor))
      rw [hcursor] at hrest
      exact hrest.trans hfollows

/-- A reading that is only looked at leads a parser forward if it never moved back itself. -/
theorem follows_read {α : Type} {reading : Cursor → Outcome α} (h : (reading p.cursor).Follows p.cursor) :
    (p.read reading).2.Follows p := by
  obtain ⟨n, hn⟩ := h
  exact follows_moveTo hn

/-- **The next token is expected**: it is taken if it is of the kind, and otherwise the parser stays. -/
theorem expect_eq (p : Parser) (kind : TokenKind) :
    p.expect kind =
      if p.cursor.lookahead.kind = kind then (.ok p.cursor.lookahead, p.advance)
      else (.error ⟨.unexpected kind p.cursor.lookahead.kind, p.cursor.lookahead.span.start⟩, p) := by
  unfold expect Cursor.expect
  split_ifs with h
  · rw [← Cursor.current_advance]
    rfl
  · rfl

/-- Expecting a token leads a parser one step forward or nowhere. -/
theorem follows_expect (p : Parser) (kind : TokenKind) : (p.expect kind).2.Follows p := by
  rw [expect_eq]
  split_ifs with h
  · exact follows_advance p
  · exact .refl p

/-- What can be asked of a parser. -/
inductive Call where
  | advance
  | expect (kind : TokenKind)
  | record (e : SyntaxError)
  | program
  | statement
  | binding
  | returning
  | expressionStatement
  | expression (bp : BindingPower)
  | primary
  | prefixed
  | grouped
  | operation (op : BinaryOp) (left : Expr)
  | withOperator (op : BinaryOp) (power : BindingPower)
  | withOperand (kind : TokenKind) (rule : OperandRule)
  | withStatement (kind : TokenKind) (rule : StatementRule)

/-- The parser after a call. -/
def perform (p : Parser) : Call → Parser
  | .advance => p.advance
  | .expect kind => (p.expect kind).2
  | .record e => p.record e
  | .program => p.program.2
  | .statement => p.statement.2
  | .binding => (p.read Cursor.binding).2
  | .returning => (p.read Cursor.returning).2
  | .expressionStatement => p.expressionStatement.2
  | .expression bp => (p.read (p.grammar.expression bp)).2
  | .primary => (p.read Grammar.primary).2
  | .prefixed => (p.read (Grammar.prefixed p.grammar.expression)).2
  | .grouped => (p.read (Grammar.grouped p.grammar.expression)).2
  | .operation op left => (p.read (p.grammar.operation p.grammar.expression op left)).2
  | .withOperator op power => p.withOperator op power
  | .withOperand kind rule => p.withOperand kind rule
  | .withStatement kind rule => p.withStatement kind rule

/-- The parser after calls, the first one first. -/
def run (p : Parser) (calls : List Call) : Parser :=
  calls.foldl perform p

/-- **Whatever is asked of it, a parser only moves forward.** -/
theorem follows_perform (p : Parser) (call : Call) : (p.perform call).Follows p := by
  cases call with
  | advance => exact follows_advance p
  | expect kind => exact follows_expect p kind
  | record e => exact follows_record p e
  | program => exact follows_foldl_pass p.grammar _ p
  | statement => exact (follows_take (p.grammar.statement_spec p.cursor).1).1
  | binding => exact follows_read (Grammar.follows_ruleStatement .binding p.cursor)
  | returning => exact follows_read (Grammar.follows_ruleStatement .returning p.cursor)
  | expressionStatement => exact (follows_take (p.grammar.expressionStatement_spec p.cursor).1).1
  | expression bp => exact follows_read (p.grammar.follows_expression bp p.cursor)
  | primary => exact follows_read (.here _ _)
  | prefixed => exact follows_read (Grammar.follows_prefixed p.grammar.follows_expression p.cursor)
  | grouped => exact follows_read (Grammar.follows_grouped p.grammar.follows_expression p.cursor)
  | operation op left =>
    exact follows_read (Grammar.follows_operation p.grammar.follows_expression op left p.cursor)
  | withOperator | withOperand | withStatement => exact .of_eq rfl rfl

/-- **Whatever calls are made on it, a parser only moves forward.** -/
theorem follows_run (p : Parser) (calls : List Call) : (p.run calls).Follows p := by
  induction calls generalizing p with
  | nil => exact .refl p
  | cons call calls ih => exact (ih (p.perform call)).trans (p.follows_perform call)

/-- The errors that a call records. An error that a call returns is not recorded. -/
def Call.errors (p : Parser) : Call → List SyntaxError
  | .record e => [e]
  | .program => Reading.errors (p.grammar.statements p.cursor)
  | .statement => ((p.grammar.statement p.cursor).failure?.map (·.error)).toList
  | .expressionStatement => ((p.grammar.expressionStatement p.cursor).failure?.map (·.error)).toList
  | _ => []

/-- How many errors a call records, by what it gives: one for each statement that was dropped or left its
place empty. -/
def Call.losses (p : Parser) : Call → Nat
  | .record _ => 1
  | .program => (p.grammar.statements p.cursor).countP fun r => r.value.all Stmt.isEmptyExpression
  | .statement => if p.statement.1.all Stmt.isEmptyExpression then 1 else 0
  | .expressionStatement => if p.expressionStatement.1.isEmptyExpression then 1 else 0
  | _ => 0

/-- A reading that returns its error records none. -/
theorem errors_read {α : Type} (p : Parser) (reading : Cursor → Outcome α) :
    (p.read reading).2.errors = p.errors := rfl

/-- A token that is not there is returned as an error, and not recorded as one. -/
theorem errors_expect (p : Parser) (kind : TokenKind) : (p.expect kind).2.errors = p.errors := by
  rw [expect_eq]
  split_ifs <;> rfl

/-- Taking a reading gives its value. -/
theorem take_fst {α : Type} (p : Parser) (r : Reading α) : (p.take r).1 = r.value := by
  unfold take
  split <;> rfl

/-- **Errors are only ever added.** -/
theorem errors_perform (p : Parser) (call : Call) :
    (p.perform call).errors.toList = p.errors.toList ++ call.errors p := by
  cases call with
  | record e => exact Array.toList_push
  | program => exact errors_foldl_pass _ p
  | statement => exact errors_take p _
  | expressionStatement => exact errors_take p _
  | expect kind =>
    rw [perform, errors_expect]
    exact (List.append_nil _).symm
  | binding | returning | expression bp | primary | prefixed | grouped | operation op left =>
    rw [perform, errors_read]
    exact (List.append_nil _).symm
  | advance | withOperator | withOperand | withStatement => exact (List.append_nil _).symm

/-- **A call records as many errors as it loses statements**, and those it was asked to record. -/
theorem length_errors (p : Parser) (call : Call) : (call.errors p).length = call.losses p := by
  cases call with
  | program => exact p.grammar.length_errors_statementsUpTo _ _
  | statement =>
    rw [Call.losses, Parser.statement, take_fst]
    exact (p.grammar.statement_spec p.cursor).2
  | expressionStatement =>
    rw [Call.losses, Parser.expressionStatement, take_fst]
    exact (p.grammar.expressionStatement_spec p.cursor).2
  | _ => rfl

end Parser

/-- **Whatever was asked of a parser, and whatever is asked of it next**: it stands at a place of its text,
sees the token behind it and has everything behind that one still to scan, before the call and after it, and
it never goes back. A token that is expected and not there leaves the parser as it was, one that is there
takes it one place on. Errors are only added: those recorded by hand, and one for each statement that was
dropped or left its place empty. -/
theorem perform_after_run (text : String) (file : Option String) (calls : List Parser.Call)
    (call : Parser.Call) :
    let p := (Parser.ofText text file).run calls
    let q := p.perform call
    p.Window text file p.cursor.index ∧ q.Window text file q.cursor.index ∧
      p.cursor.index ≤ q.cursor.index ∧
      (∀ kind, if p.cursor.lookahead.kind = kind then
          p.expect kind = (.ok p.cursor.lookahead, p.advance) ∧
            p.advance.cursor.index = p.cursor.index + 1
        else p.expect kind = (.error ⟨.unexpected kind p.cursor.lookahead.kind,
          p.cursor.lookahead.span.start⟩, p)) ∧
      ∃ es, q.errors.toList = p.errors.toList ++ es ∧ es.length = call.losses p ∧
        ∀ e, call = .record e → es = [e] := by
  intro p q
  have hp : p.Follows (.ofText text file) := Parser.follows_run _ calls
  have hq : q.Follows p := p.follows_perform call
  refine ⟨Parser.window_of_follows hp, Parser.window_of_follows (hq.trans hp), hq.index_le, ?_,
    call.errors p, p.errors_perform call, p.length_errors call, ?_⟩
  · intro kind
    rw [Parser.expect_eq]
    split_ifs
    · exact ⟨rfl, rfl⟩
    · rfl
  · rintro e rfl
    rfl

end Prattle
