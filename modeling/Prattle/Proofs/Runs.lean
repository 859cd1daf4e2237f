import Prattle.Proofs.Acceptance
import Prattle.Proofs.Simulation
import Prattle.Proofs.Tokenization

/-!
# Every token belongs to one statement

The readings of a text cut its tokens into runs. `Reading.Takes` says which tokens a reading may take,
and what came of them: a statement with the span of its run, or a dropped binding, and at most one
error. `Reading.Cuts` is one run per reading, with nothing between them and nothing left.

* **A reading takes a run** (`Grammar.takes_statement`), and no run is empty (`Reading.Takes.ne_nil`).
* **The readings of a text cut its tokens** (`parse_cuts`), and there are as many errors as dropped
  bindings and expression statements with an empty place.
-/

namespace Prattle

open Syntax

/-! ### Runs -/

/-- An expression statement takes the `;` behind it, if there is one. -/
inductive IsPassed : List Token → List Token → Prop
  | semicolon {t : Token} {rest : List Token} (kind : t.kind = .semicolon) : IsPassed [t] rest
  | none {rest : List Token} (ahead : ∀ t ∈ rest.head?, t.kind ≠ .semicolon) : IsPassed [] rest

namespace Reading

/-- The reading takes the tokens `run` in front of the tokens `rest`. Its statement runs from the start of the
first token of the run to the end of the last one. Where a skipped value ran into the end of the input, the
statement reaches up to the end of the token `eof`. -/
inductive Takes (eof : Token) : Reading (Option Stmt) → List Token → List Token → Prop
  | binding {t name assign : Token} {xs stop rest : List Token} {c : Cursor}
      (kind : t.kind = .letWord) (isName : name.kind = .identifier)
      (isAssign : assign.kind = .assign) (skipped : ∀ x ∈ xs, x.kind ≠ .semicolon)
      (isEnd : IsEnd stop rest) :
      Takes eof ⟨some (.binding t (.ofToken name) none ⟨t.span.start, (stop.headD eof).span.stop⟩),
        none, c⟩ (t :: name :: assign :: xs ++ stop) rest
  | returning {t : Token} {xs stop rest : List Token} {c : Cursor} (kind : t.kind = .returnWord)
      (skipped : ∀ x ∈ xs, x.kind ≠ .semicolon) (isEnd : IsEnd stop rest) :
      Takes eof ⟨some (.returning t none ⟨t.span.start, (stop.headD eof).span.stop⟩), none, c⟩
        (t :: xs ++ stop) rest
  | expression {first last : Token} {ts stop rest : List Token} {e : Expr} {c : Cursor}
      (covers : e.Covers ts) (passed : IsPassed stop rest)
      (starts : (ts ++ stop).head? = some first) (ends : (ts ++ stop).getLast? = some last) :
      Takes eof ⟨some (.expression first (some e) ⟨first.span.start, last.span.stop⟩), none, c⟩
        (ts ++ stop) rest
  /-- A broken expression: the failure stands at `xs`, and `before` was read up to there. -/
  | broken {first : Token} {before xs stop rest : List Token} {failure : Failure} {c : Cursor}
      (starts : (before ++ xs ++ stop).head? = some first)
      (stands : failure.cursor.tokens = xs ++ stop ++ rest)
      (skipped : ∀ x ∈ xs, x.kind ≠ .semicolon) (isEnd : IsEnd stop rest) :
      Takes eof ⟨some (.expression first none ⟨first.span.start, (stop.headD eof).span.stop⟩),
        some failure, c⟩ (before ++ xs ++ stop) rest
  /-- A binding without a name is dropped. -/
  | unnamed {t : Token} {rest : List Token} {c c' : Cursor} (kind : t.kind = .letWord)
      (noName : (rest.headD eof).kind ≠ .identifier) :
      Takes eof ⟨none, some ⟨⟨.unexpected .identifier (rest.headD eof).kind,
        (rest.headD eof).span.start⟩, c'⟩, c⟩ [t] rest
  /-- A binding without an `=` is dropped. -/
  | unassigned {t name : Token} {rest : List Token} {c c' : Cursor} (kind : t.kind = .letWord)
      (isName : name.kind = .identifier) (noAssign : (rest.headD eof).kind ≠ .assign) :
      Takes eof ⟨none, some ⟨⟨.unexpected .assign (rest.headD eof).kind,
        (rest.headD eof).span.start⟩, c'⟩, c⟩ [t, name] rest

/-- The runs of the readings, one behind the other up to the end. -/
inductive Cuts (eof : Token) : List (Reading (Option Stmt)) → List (List Token) → Prop
  | nil : Cuts eof [] []
  | cons {r : Reading (Option Stmt)} {rs : List (Reading (Option Stmt))} {run : List Token}
      {runs : List (List Token)} (first : r.Takes eof run runs.flatten) (more : Cuts eof rs runs) :
      Cuts eof (r :: rs) (run :: runs)

variable {eof : Token} {r : Reading (Option Stmt)} {rs : List (Reading (Option Stmt))}
  {run rest : List Token} {runs : List (List Token)}

/-- **No run is empty.** -/
theorem Takes.ne_nil (h : r.Takes eof run rest) : run ≠ [] := by
  cases h with
  | binding | returning | unnamed | unassigned => exact List.cons_ne_nil _ _
  | expression covers passed starts ends =>
    rintro hnil
    rw [hnil] at starts
    cases starts
  | broken starts stands skipped isEnd =>
    rintro hnil
    rw [hnil] at starts
    cases starts

/-- No run is empty. -/
theorem Cuts.ne_nil (h : Cuts eof rs runs) : ∀ run ∈ runs, run ≠ [] := by
  induction h with
  | nil => exact fun run hrun => absurd hrun List.not_mem_nil
  | cons first more ih => exact List.forall_mem_cons.mpr ⟨first.ne_nil, ih⟩

end Reading

/-- The place of an expression statement is empty. -/
def Stmt.isEmptyExpression : Stmt → Bool
  | .expression _ value _ => value.isNone
  | _ => false

namespace Reading

variable {eof : Token} {r : Reading (Option Stmt)} {rs : List (Reading (Option Stmt))}
  {run rest : List Token} {runs : List (List Token)}

/-- A reading met one error if it dropped a binding or left the place of an expression empty, and none
otherwise. -/
theorem Takes.length_errors (h : r.Takes eof run rest) :
    (r.failure?.map (·.error)).toList.length =
      (if r.value.isNone then 1 else 0) + r.value.toList.countP Stmt.isEmptyExpression := by
  cases h <;> rfl

/-- **There are as many errors as dropped bindings and empty places of expressions.** -/
theorem Cuts.length_errors (h : Cuts eof rs runs) :
    (errors rs).length =
      rs.countP (·.value.isNone) + (values rs).countP Stmt.isEmptyExpression := by
  induction h with
  | nil => rfl
  | cons first more ih =>
    rw [errors_cons, values_cons, List.length_append, List.countP_cons, List.countP_append,
      first.length_errors, ih]
    omega

end Reading

namespace Grammar

variable {c c' : Cursor}

/-! ### Where a reading ends -/

/-- No expression of the standard grammar has the end of the input in it. -/
theorem standard_within_text : standard.Within (· ≠ .endOfInput) where
  operand := by
    rintro kind rule h rfl
    cases h
  operator := by
    rintro kind op h rfl
    cases h
  closing := by decide

/-- A text is read like itself. -/
theorem same_simulation {steps : TokenKind → Prop} :
    Cursor.Simulation steps id id (fun _ => False) (· = ·) where
  current := by
    rintro c d rfl
    rfl
  atEnd := by
    rintro c d rfl
    rfl
  advance := by
    rintro c d rfl -
    exact .inr rfl
  out := id

/-- An expression that was read ends on a token of a kind that expressions have. -/
theorem steps_of_expression {steps : TokenKind → Prop} (hwithin : standard.Within steps)
    {bp : BindingPower} {e : Expr} (h : standard.expression bp c = ⟨.ok e, c'⟩) :
    steps c'.current.kind := by
  -- a reading agrees with itself, and readings that agree end on such a token
  have hagree := agree_expression same_simulation hwithin bp (rfl : c = c)
  rw [h] at hagree
  rcases hagree with ⟨-, -, hkind⟩ | _ | hout
  · exact hkind
  · exact hout.elim

/-- An expression that was read ends on the last of its tokens. -/
theorem exists_tokens_of_expression {bp : BindingPower} {e : Expr} (hc : c.Terminated)
    (h : standard.expression bp c = ⟨.ok e, c'⟩) :
    ∃ ts, c.tokens = ts ++ c'.current :: c'.advance.tokens ∧
      e.Covers (ts ++ [c'.current]) := by
  have hkind : c'.current.kind ≠ .endOfInput := steps_of_expression standard_within_text h
  have hc' := terminated_of_expression hc h
  have hend := hc'.atEnd_eq_false rfl hkind
  obtain ⟨ts, hts, hcovers⟩ := covers_of_expression hc h
  obtain ⟨n, hn⟩ := standard.follows_expression bp c
  rw [h] at hn
  have htokens : c'.tokens = c.tokens.drop n := congrArg Cursor.tokens hn
  have hsplit : c.tokens = c.tokens.take n ++ c'.current :: c'.advance.tokens := by
    rw [← Cursor.tokens_of_not_atEnd hend, htokens, List.take_append_drop]
  refine ⟨c.tokens.take n, hsplit, ?_⟩
  have heq : ts ++ c'.advance.tokens = c.tokens.take n ++ [c'.current] ++ c'.advance.tokens := by
    rw [← hts, List.append_assoc, List.singleton_append, ← hsplit]
  rwa [← List.append_cancel_right heq]

/-! ### One reading -/

/-- A statement without a keyword takes a run of the tokens. -/
theorem takes_expression (hc : c.Terminated) (hend : c.atEnd = false)
    (hrule : standard.statement? c.current.kind = none) :
    ∃ run, c.tokens = run ++ (standard.statement c).cursor.advance.tokens ∧
      (standard.statement c).Takes c.eof run (standard.statement c).cursor.advance.tokens := by
  have hhead : c.tokens.head? = some c.current := by
    rw [Cursor.tokens_of_not_atEnd hend]
    rfl
  rcases hr : standard.expression .lowest c with ⟨err | e, c'⟩
  · rw [statement_of_expression_error hrule hr]
    obtain ⟨n, hn⟩ := standard.follows_expression .lowest c
    rw [hr] at hn
    have hn : c' = c.forward n := hn
    have htokens : c'.tokens = c.tokens.drop n := by rw [hn, Cursor.tokens_forward]
    have heof : c'.eof = c.eof := by rw [hn, Cursor.eof_forward]
    obtain ⟨xs, stop, hxs, hskipped, hstop, hlast⟩ := exists_skipped c'
    have hsplit : c.tokens = c.tokens.take n ++ xs ++ stop ++ c'.skipToSemicolon.advance.tokens := by
      rw [List.append_assoc, List.append_assoc, ← List.append_assoc xs, ← hxs, htokens,
        List.take_append_drop]
    refine ⟨_, hsplit, ?_⟩
    rw [hlast, heof]
    refine .broken ?_ hxs hskipped hstop
    -- the run is not empty: where nothing was skipped and nothing read, nothing would be left
    rcases hrun : c.tokens.take n ++ xs ++ stop with _ | ⟨t, run⟩
    · rw [hrun, List.nil_append] at hsplit
      have hnil : stop = [] := (List.append_eq_nil_iff.mp hrun).2
      generalize c'.skipToSemicolon.advance.tokens = rest at hsplit hstop
      rw [hnil] at hstop
      cases hstop
      rw [hsplit] at hhead
      cases hhead
    · rw [hrun] at hsplit
      rw [← hhead, hsplit]
      rfl
  · rw [statement_of_expression_ok hrule hr]
    obtain ⟨ts, hts, hcovers⟩ := exists_tokens_of_expression hc hr
    have hc' := terminated_of_expression hc hr
    have hstarts : ∀ stop, (ts ++ [c'.current] ++ stop).head? = some c.current := by
      intro stop
      rw [← hhead, hts]
      rcases ts with _ | ⟨t, ts⟩
      · rfl
      · rfl
    by_cases hahead : c'.lookahead.kind = .semicolon
    · rw [Cursor.passSemicolon_of_semicolon hahead]
      rw [← Cursor.current_advance] at hahead
      have hend' := hc'.advance.atEnd_eq_false hahead (by decide)
      refine ⟨ts ++ [c'.current] ++ [c'.advance.current], ?_,
        .expression hcovers (.semicolon hahead) (hstarts _) List.getLast?_concat⟩
      rw [hts, Cursor.tokens_of_not_atEnd hend']
      simp only [List.append_assoc, List.cons_append, List.nil_append]
    · rw [Cursor.passSemicolon_of_ne hahead]
      have hpassed : IsPassed [] c'.advance.tokens := by
        refine .none fun t ht hkind => hahead ?_
        rw [← Cursor.current_advance, Cursor.current, List.headD_eq_head?_getD, Option.mem_def.mp ht]
        exact hkind
      have htake := @Reading.Takes.expression c.eof c.current c'.current _ _ _ e c' hcovers hpassed
        (hstarts _) (by rw [List.append_nil, List.getLast?_concat])
      rw [List.append_nil] at htake
      refine ⟨ts ++ [c'.current], ?_, htake⟩
      rw [hts, List.append_assoc, List.singleton_append]

/-- A statement with `let` takes a run of the tokens. -/
theorem takes_binding (hc : c.Terminated) (hend : c.atEnd = false)
    (hkind : c.current.kind = .letWord) :
    ∃ run, c.tokens = run ++ (standard.statement c).cursor.advance.tokens ∧
      (standard.statement c).Takes c.eof run (standard.statement c).cursor.advance.tokens := by
  have hrule : standard.statement? c.current.kind = some .binding := by rw [hkind]; rfl
  have hahead : ∀ d : Cursor, d.lookahead = d.advance.tokens.headD d.eof := fun d => by
    rw [Cursor.tokens_advance]
    rfl
  by_cases hname : c.lookahead.kind = .identifier
  · have hname' := hname
    rw [← Cursor.current_advance] at hname'
    have hend₁ := hc.advance.atEnd_eq_false hname' (by decide)
    by_cases hassign : c.advance.lookahead.kind = .assign
    · have hread : ruleStatement .binding c = ⟨.ok _, _⟩ :=
        Cursor.binding_eq_ok_iff.mpr ⟨hname, hassign, rfl, rfl⟩
      rw [← Cursor.current_advance] at hassign
      have hend₂ := hc.advance.advance.atEnd_eq_false hassign (by decide)
      have hstart : c.advance.advance.skipToSemicolon = c.advance.advance.advance.skipToSemicolon :=
        Cursor.skipToSemicolon_of_ne hend₂ (by rw [hassign]; decide)
      rw [statement_of_rule_ok hrule hread, hstart]
      obtain ⟨xs, stop, hxs, hskipped, hstop, hlast⟩ :=
        exists_skipped c.advance.advance.advance
      rw [hlast, ← Cursor.current_advance]
      refine ⟨_, ?_, .binding hkind hname' hassign hskipped hstop⟩
      rw [Cursor.tokens_of_not_atEnd hend, Cursor.tokens_of_not_atEnd hend₁,
        Cursor.tokens_of_not_atEnd hend₂, hxs]
      rfl
    · have hread : ruleStatement .binding c = ⟨.error _, c.advance⟩ :=
        Cursor.binding_of_unassigned (Cursor.expect_eq_ok_iff.mpr ⟨hname, rfl⟩) (if_neg hassign)
      rw [statement_of_rule_error hrule hread]
      refine ⟨[c.current, c.advance.current], ?_, ?_⟩
      · rw [Cursor.tokens_of_not_atEnd hend, Cursor.tokens_of_not_atEnd hend₁]
        rfl
      · rw [hahead] at hassign ⊢
        exact .unassigned hkind hname' hassign
  · have hread : ruleStatement .binding c = ⟨.error _, c⟩ :=
      Cursor.binding_of_unnamed (if_neg hname)
    rw [statement_of_rule_error hrule hread]
    refine ⟨[c.current], Cursor.tokens_of_not_atEnd hend, ?_⟩
    rw [hahead] at hname ⊢
    exact .unnamed hkind hname

/-- A statement with `return` takes a run of the tokens. -/
theorem takes_returning (hend : c.atEnd = false) (hkind : c.current.kind = .returnWord) :
    ∃ run, c.tokens = run ++ (standard.statement c).cursor.advance.tokens ∧
      (standard.statement c).Takes c.eof run (standard.statement c).cursor.advance.tokens := by
  have hrule : standard.statement? c.current.kind = some .returning := by rw [hkind]; rfl
  have hread : ruleStatement .returning c = ⟨.ok _, _⟩ := rfl
  obtain ⟨xs, stop, hxs, hskipped, hstop, hlast⟩ := exists_skipped c.advance
  rw [statement_of_rule_ok hrule hread, hlast]
  refine ⟨_, ?_, .returning hkind hskipped hstop⟩
  rw [Cursor.tokens_of_not_atEnd hend, hxs]
  rfl

/-- **A reading takes a run of the tokens in front of it**, and goes on behind that run. -/
theorem takes_statement (hc : c.Terminated) (hend : c.atEnd = false) :
    ∃ run, c.tokens = run ++ (standard.statement c).cursor.advance.tokens ∧
      (standard.statement c).Takes c.eof run (standard.statement c).cursor.advance.tokens := by
  rcases hrule : standard.statement? c.current.kind with _ | rule
  · exact takes_expression hc hend hrule
  · rcases standard_statement?_eq_some hrule with ⟨hkind, rfl⟩ | ⟨hkind, rfl⟩
    · exact takes_binding hc hend hkind
    · exact takes_returning hend hkind

/-! ### All readings -/

/-- **Readings cut the tokens in front of them.** -/
theorem cuts_statements (hc : c.Terminated) :
    ∃ runs, runs.flatten = c.tokens ∧ Reading.Cuts c.eof (standard.statements c) runs := by
  induction c using standard.statements_induction with
  | atEnd c hend =>
    rw [statements_of_atEnd hend]
    exact ⟨[], (List.isEmpty_iff.mp hend).symm, .nil⟩
  | statement c hend ih =>
    obtain ⟨run, htokens, htakes⟩ := takes_statement hc hend
    obtain ⟨runs, hflatten, hcuts⟩ := ih (terminated_after_statement hc)
    obtain ⟨k, hk⟩ := standard.exists_advance_eq_forward c
    have heof : (standard.statement c).cursor.advance.eof = c.eof := by rw [hk, Cursor.eof_forward]
    rw [heof] at hcuts
    rw [statements_of_not_atEnd hend]
    refine ⟨run :: runs, ?_, .cons ?_ hcuts⟩
    · rw [List.flatten_cons, hflatten, ← htokens]
    · rwa [hflatten]

end Grammar

/-- **The readings of a text cut its tokens**: every token belongs to the run of one reading, and the runs
follow one another without a gap. Each run is a statement of the program or a dropped binding, and the
errors are one for each dropped binding and one for each expression statement with an empty place. -/
theorem parse_cuts (text : String) (file : Option String) (hsize : text.utf8ByteSize < 2 ^ 32) :
    ∃ runs : List (List Token),
      runs.flatten = (tokenize text file).dropLast ∧ (∀ run ∈ runs, run ≠ []) ∧
      Reading.Cuts (.endOf text (file.getD Scanner.defaultLabel))
        (Grammar.standard.statements (.ofText text file)) runs ∧
      (Token.endOf text (file.getD Scanner.defaultLabel)).past = text.utf8ByteSize ∧
      (parse text file).1.statements =
        Reading.values (Grammar.standard.statements (.ofText text file)) ∧
      (parse text file).2 = Reading.errors (Grammar.standard.statements (.ofText text file)) ∧
      (parse text file).2.length =
        (Grammar.standard.statements (.ofText text file)).countP (·.value.isNone) +
          (parse text file).1.statements.countP Stmt.isEmptyExpression := by
  have htokens : (tokenize text file).dropLast = (Cursor.ofText text file).tokens :=
    List.dropLast_concat
  obtain ⟨runs, hflatten, hcuts⟩ := Grammar.cuts_statements (Cursor.terminated_ofText text file)
  rw [Cursor.eof_ofText] at hcuts
  rw [parse_eq, htokens]
  exact ⟨runs, hflatten, hcuts.ne_nil, hcuts, (Token.offsets_endOf _ hsize).2, rfl, rfl,
    hcuts.length_errors⟩

/-- A dropped `let`, a broken group up to its `;`, two expressions without a `;` between them, and a return
that runs into the end. -/
theorem parse_cuts_mixed :
    "let 1; (a + ; x y return z".utf8ByteSize < 2 ^ 32 ∧
    ∃ runs : List (List Token),
      runs.flatten = (tokenize "let 1; (a + ; x y return z" none).dropLast ∧
      Reading.Cuts (.endOf "let 1; (a + ; x y return z" "shell")
        (Grammar.standard.statements (.ofText "let 1; (a + ; x y return z" none)) runs ∧
      (parse "let 1; (a + ; x y return z" none).2.length = 2 ∧
      ((parse "let 1; (a + ; x y return z" none).1.statements.map fun s =>
        (s.span.start.offset.toNat, s.span.stop.offset.toNat)) =
          [(4, 6), (7, 13), (14, 15), (16, 17), (18, 26)] := by
  have hsize : "let 1; (a + ; x y return z".utf8ByteSize < 2 ^ 32 := by decide
  obtain ⟨runs, hflatten, -, hcuts, -, -, -, -⟩ := parse_cuts "let 1; (a + ; x y return z" none hsize
  exact ⟨hsize, runs, hflatten, hcuts, by decide, by decide⟩

end Prattle
