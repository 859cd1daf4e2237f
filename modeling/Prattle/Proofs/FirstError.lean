import Prattle.Proofs.Completion
import Prattle.Proofs.Simulation
import Prattle.Proofs.Tokenization

/-!
# The first error stands as early as it can

`Grammar.FirstError c err last` says that reading statements from `c` meets the error `err` first, and
that it is blamed on the token under `last`.

* **What stands in front of that token can be completed** to a program (`FirstError.viable`), so no
  reading could have given it up earlier.
* **Nothing behind that token matters** (`FirstError.of_related`): wherever the tokens up to it are the
  same, the first error is.
* **The first error of a text** is therefore at the first token at which there is no program any more
  (`parse_first_error`).
-/

namespace Prattle

open Syntax

namespace Grammar

variable {c d last : Cursor} {err : SyntaxError}

/-! ### The reading that fails first -/

/-- The first of the readings from a cursor on that fails: its error, and the cursor on the token which
that is blamed on. -/
inductive FirstError : Cursor → SyntaxError → Cursor → Prop
  | here {c : Cursor} {failure : Failure} (hend : c.atEnd = false)
      (failed : (standard.statement c).failure? = some failure) :
      FirstError c failure.error failure.last
  | later {c last : Cursor} {err : SyntaxError} (hend : c.atEnd = false)
      (passed : (standard.statement c).failure? = none)
      (more : FirstError (standard.statement c).cursor.advance err last) : FirstError c err last

/-- If there are errors, the first one is met by a reading and blamed on a token. -/
theorem exists_firstError {errs : List SyntaxError}
    (h : Reading.errors (standard.statements c) = err :: errs) : ∃ last, FirstError c err last := by
  induction c using standard.statements_induction with
  | atEnd c hend =>
    rw [statements_of_atEnd hend] at h
    cases h
  | statement c hend ih =>
    rw [statements_of_not_atEnd hend, Reading.errors_cons] at h
    rcases hfailure : (standard.statement c).failure? with _ | failure
    · rw [hfailure] at h
      obtain ⟨last, hlast⟩ := ih h
      exact ⟨last, .later hend hfailure hlast⟩
    · rw [hfailure] at h
      obtain ⟨rfl, -⟩ := List.cons.inj h
      exact ⟨failure.last, .here hend hfailure⟩

/-- A first error comes first among the errors. -/
theorem FirstError.exists_errors (h : FirstError c err last) :
    ∃ errs, Reading.errors (standard.statements c) = err :: errs := by
  induction h with
  | here hend failed =>
    rw [statements_of_not_atEnd hend, Reading.errors_cons, failed]
    exact ⟨_, rfl⟩
  | later hend passed more ih =>
    obtain ⟨errs, herrs⟩ := ih
    rw [statements_of_not_atEnd hend, Reading.errors_cons, passed, herrs]
    exact ⟨errs, rfl⟩

/-- Where there is a first error, it is not the end. -/
theorem FirstError.atEnd_eq_false (h : FirstError c err last) : c.atEnd = false := by
  cases h with
  | here hend failed => exact hend
  | later hend passed more => exact hend

/-- The first error is blamed on a token from the start on. -/
theorem FirstError.exists_forward (h : FirstError c err last) : ∃ n, last = c.forward n := by
  induction h with
  | @here c failure hend failed =>
    have hfollows : ∃ n, failure.cursor = c.forward n := by
      rcases standard_statement_failure? failed with ⟨-, hbinding, -⟩ | ⟨hexpression, -⟩
      · obtain ⟨n, hn⟩ := follows_ruleStatement .binding c
        have hread : ruleStatement .binding c = ⟨.error failure.error, failure.cursor⟩ := hbinding
        rw [hread] at hn
        exact ⟨n, hn⟩
      · obtain ⟨n, hn⟩ := standard.follows_expression .lowest c
        rw [hexpression] at hn
        exact ⟨n, hn⟩
    obtain ⟨n, hn⟩ := hfollows
    rw [Failure.last, hn, Cursor.forward_forward]
    exact ⟨_, rfl⟩
  | @later c last err hend passed more ih =>
    obtain ⟨n, hn⟩ := ih
    obtain ⟨m, hm⟩ := standard.exists_advance_eq_forward c
    rw [hn, hm, Cursor.forward_forward]
    exact ⟨_, rfl⟩

/-- **What stands in front of the first error can be completed to a program**, and does not end with an
illegal token. -/
theorem FirstError.viable (hc : c.Terminated) (h : FirstError c err last) :
    err.position = last.current.span.start ∧ ∃ ts, c.tokens = ts ++ last.tokens ∧
      Viable IsProgram ts ∧ ∀ t ∈ ts.getLast?, t.kind ≠ .illegal := by
  induction h with
  | @here c failure hend failed =>
    obtain ⟨hposition, ts, hts, hviable, hlegal⟩ := stopsAt_of_statement hc hend failed
    refine ⟨hposition, ts, hts, ?_, fun t ht => hlegal t (List.mem_of_getLast? ht)⟩
    refine hviable.imp fun more hstmt => ?_
    have hprogram := IsProgram.cons hstmt .nil
    rwa [List.append_nil] at hprogram
  | @later c last err hend passed more ih =>
    obtain ⟨hposition, ts, hts, hviable, hlegal⟩ := ih (terminated_after_statement hc)
    obtain ⟨run, hrun, hstmt⟩ := isStmt_of_statement hc hend passed
    have hne : (standard.statement c).cursor.advance.tokens ≠ [] :=
      List.isEmpty_eq_false_iff.mp more.atEnd_eq_false
    refine ⟨hposition, run ++ ts, ?_, ?_, ?_⟩
    · rw [hrun, hts, List.append_assoc]
    · refine hviable.imp fun more hprogram => ?_
      rw [List.append_assoc]
      exact .cons (hstmt.of_ne_nil hne _) hprogram
    · rcases ts with _ | ⟨t, ts⟩
      · rw [List.append_nil]
        exact hstmt.getLast?_ne_illegal hne
      · rwa [List.getLast?_append_of_ne_nil _ (List.cons_ne_nil _ _)]

/-! ### What the first error depends on -/

section related

variable {f f' : Position → Position} {Out : Cursor → Prop} {R : Cursor → Cursor → Prop}

/-- **The first error depends on nothing behind the token that it is blamed on.** -/
theorem FirstError.of_related (hR : Cursor.Simulation (fun _ => True) f f' Out R)
    (h : FirstError c err last) (hcd : R c d) (hin : ¬ Out last) :
    ∃ err' last', FirstError d err' last' ∧ err.relocate f = err'.relocate f' := by
  have hR' : Cursor.Simulation (· ≠ .semicolon) f f' Out R := hR.mono fun _ _ => trivial
  induction h generalizing d with
  | @here c failure hend failed =>
    have hfailed : ∀ {r : Option Failure},
        (standard.statement c).failure?.map (·.error.relocate f) = r.map (·.error.relocate f') →
        ∃ failure', r = some failure' ∧ failure.error.relocate f = failure'.error.relocate f' := by
      intro r hr
      rw [failed, Option.map_some, eq_comm, Option.map_eq_some_iff] at hr
      obtain ⟨failure', hfailure', heq⟩ := hr
      exact ⟨failure', hfailure', heq.symm⟩
    have hend' : d.atEnd = false := (hR.atEnd hcd).symm.trans hend
    rcases alike_statement hR' hcd with ⟨hfailure, -, -⟩ | ⟨hfailure, -⟩ | hout
    · obtain ⟨failure', hfailure', heq⟩ := hfailed hfailure
      exact ⟨_, _, .here hend' hfailure', heq⟩
    · obtain ⟨failure', hfailure', heq⟩ := hfailed hfailure
      exact ⟨_, _, .here hend' hfailure', heq⟩
    · rw [Reading.last, failed] at hout
      exact absurd hout hin
  | @later c last err hend passed more ih =>
    obtain ⟨n, hn⟩ := more.exists_forward
    have hnext : ¬ Out (standard.statement c).cursor.advance := by
      intro hout
      rw [hn] at hin
      exact hin (hR.out_forward hout n)
    rcases alike_statement hR' hcd with ⟨hfailure, -, hcursor⟩ | ⟨-, hout⟩ | hout
    · rcases hR.advance hcursor trivial with hout | hrelated
      · exact absurd hout hnext
      · obtain ⟨err', last', hfirst, heq⟩ := ih hrelated hin
        refine ⟨err', last', .later ((hR.atEnd hcd).symm.trans hend) ?_ hfirst, heq⟩
        rw [passed, Option.map_none, eq_comm, Option.map_eq_none_iff] at hfailure
        exact hfailure
    · exact absurd (hR.out hout) hnext
    · rw [Reading.last, passed] at hout
      exact absurd hout hnext

end related

/-- The tokens of the cursors are the same once relocated for some way, and then `more` is left of the
first. -/
def Shares (f : Position → Position) (more : List Token) (c d : Cursor) : Prop :=
  ∃ us more', us ≠ [] ∧ c.tokens.map (·.relocate f) = us ++ more ∧
    d.tokens.map (·.relocate f) = us ++ more'

/-- Two texts that share tokens are read alike while the shared ones last. -/
theorem shares_simulation {f : Position → Position} {more : List Token} :
    Cursor.Simulation (fun _ => True) f f (fun c => c.tokens.length ≤ more.length)
      (Shares f more) where
  current := by
    rintro c d ⟨_ | ⟨u, us⟩, more', hne, hc, hd⟩
    · exact absurd rfl hne
    · obtain ⟨t, ts, hct, ht, -⟩ := List.map_eq_cons_iff.mp hc
      obtain ⟨t', ts', hdt, ht', -⟩ := List.map_eq_cons_iff.mp hd
      rw [Cursor.current_of_tokens hct, Cursor.current_of_tokens hdt, ht, ht']
  atEnd := by
    rintro c d ⟨_ | ⟨u, us⟩, more', hne, hc, hd⟩
    · exact absurd rfl hne
    · obtain ⟨t, ts, hct, -, -⟩ := List.map_eq_cons_iff.mp hc
      obtain ⟨t', ts', hdt, -, -⟩ := List.map_eq_cons_iff.mp hd
      rw [Cursor.atEnd_of_tokens hct, Cursor.atEnd_of_tokens hdt]
  advance := by
    rintro c d ⟨_ | ⟨u, us⟩, more', hne, hc, hd⟩ -
    · exact absurd rfl hne
    · have hc' : c.advance.tokens.map (·.relocate f) = us ++ more := by
        rw [Cursor.tokens_advance, List.map_tail, hc]
        rfl
      have hd' : d.advance.tokens.map (·.relocate f) = us ++ more' := by
        rw [Cursor.tokens_advance, List.map_tail, hd]
        rfl
      rcases us with _ | ⟨u', us⟩
      · have hlength := congrArg List.length hc'
        rw [List.length_map, List.nil_append] at hlength
        exact .inl (Nat.le_of_eq hlength)
      · exact .inr ⟨u' :: us, more', List.cons_ne_nil _ _, hc', hd'⟩
  out := fun h => Nat.le_trans (Cursor.length_advance_le _) h

end Grammar

/-! ### Texts -/

/-- **A text can be cut in front of a token** that does not stand behind an illegal one. -/
theorem exists_append_of_tokens {text : String} {file : Option String}
    (hsize : text.utf8ByteSize < 2 ^ 32) {pre post : List Token} {t : Token}
    (h : (Cursor.ofText text file).tokens = pre ++ t :: post)
    (hpre : ∀ u ∈ pre.getLast?, u.kind ≠ .illegal) :
    ∃ before after, text = before ++ after ∧ before.utf8ByteSize = t.first ∧
      (Cursor.ofText before file).tokens = pre := by
  obtain ⟨before, after, hsplit, hbefore, -, hstart⟩ := Scanner.exists_cut h
  have hascii : ∀ b ∈ before.getLast?, b < 128 := Scanner.lt_of_getLast? (by rwa [hbefore])
  obtain ⟨a, r, htext, ha⟩ : ∃ a r, text = a ++ r ∧ bytes a = before := by
    rcases List.eq_nil_or_concat' before with rfl | ⟨init, b, rfl⟩
    · exact ⟨"", text, String.empty_append.symm, bytes_empty⟩
    · rw [List.getLast?_concat] at hascii
      rw [List.append_assoc, List.singleton_append] at hsplit
      obtain ⟨a, r, htext, ha, -⟩ := exists_append_of_last hsplit (hascii b rfl)
      exact ⟨a, r, htext, ha⟩
  refine ⟨a, r, htext, ?_, ?_⟩
  · have hle : a.utf8ByteSize ≤ text.utf8ByteSize := by
      rw [htext, String.utf8ByteSize_append]
      exact Nat.le_add_right _ _
    rw [Nat.zero_add, ← ha, length_bytes] at hstart
    rw [Token.first, hstart]
    exact (UInt32.toNat_ofNat_of_lt' (Nat.lt_of_le_of_lt hle hsize)).symm
  · rw [Cursor.ofText, Cursor.ofScanner, Scanner.ofText, ha]
    exact hbefore

/-- In a list that grows, a member stands in one place. -/
theorem eq_of_pairwise_lt {α : Type} {key : α → Nat} {a b a' b' : List α} {x x' : α}
    (h : (a ++ x :: b).Pairwise fun y z => key y < key z) (heq : a ++ x :: b = a' ++ x' :: b')
    (hkey : key x = key x') : a = a' ∧ x = x' ∧ b = b' := by
  induction a generalizing a' with
  | nil =>
    rcases a' with _ | ⟨y, a'⟩
    · obtain ⟨hx, hb⟩ := List.cons.inj heq
      exact ⟨rfl, hx, hb⟩
    · obtain ⟨rfl, rfl⟩ := List.cons.inj heq
      have hlt := List.rel_of_pairwise_cons h (List.mem_append_right a' List.mem_cons_self)
      omega
  | cons y a ih =>
    rcases a' with _ | ⟨y', a'⟩
    · obtain ⟨rfl, -⟩ := List.cons.inj heq
      have hlt := List.rel_of_pairwise_cons h (List.mem_append_right a List.mem_cons_self)
      omega
    · obtain ⟨rfl, htail⟩ := List.cons.inj heq
      obtain ⟨rfl, hx, hb⟩ := ih h.of_cons htail
      exact ⟨rfl, hx, hb⟩

/-- The position without the label of the file. -/
def Position.unlabelled (p : Position) : Position :=
  { p with file := "" }

section texts

variable {text : String} {file : Option String} {err : SyntaxError}

/-- A text can be cut in front of the token that a cursor is on, if no illegal one stands in front of it. -/
theorem exists_append_of_cursor (hsize : text.utf8ByteSize < 2 ^ 32) {n : Nat} {pre : List Token}
    (h : (Cursor.ofText text file).tokens = pre ++ ((Cursor.ofText text file).forward n).tokens)
    (hpre : ∀ u ∈ pre.getLast?, u.kind ≠ .illegal) :
    ∃ before after, text = before ++ after ∧
      before.utf8ByteSize = ((Cursor.ofText text file).forward n).current.first ∧
      (Cursor.ofText before file).tokens = pre := by
  rcases hleft : ((Cursor.ofText text file).forward n).tokens with _ | ⟨t, post⟩
  · -- the cursor is at the end of the text
    refine ⟨text, "", String.append_empty.symm, ?_, ?_⟩
    · rw [Cursor.current, hleft, List.headD_nil, Cursor.eof_forward, Cursor.eof_ofText]
      exact (Token.offsets_endOf _ hsize).1.symm
    · rw [h, hleft, List.append_nil]
  · rw [hleft] at h
    rw [Cursor.current_of_tokens hleft]
    exact exists_append_of_tokens hsize h hpre

/-- What stands in front of the first error can be cut off and completed. -/
theorem exists_completion (hsize : text.utf8ByteSize < 2 ^ 32) {last : Cursor}
    (h : Grammar.FirstError (.ofText text file) err last) :
    ∃ before after more, text = before ++ after ∧
      before.utf8ByteSize = err.position.offset.toNat ∧ (parse (before ++ more) file).2 = [] := by
  obtain ⟨hposition, ts, hts, ⟨faces, hspells, hprogram⟩, hlegal⟩ :=
    h.viable (Cursor.terminated_ofText text file)
  obtain ⟨n, rfl⟩ := h.exists_forward
  obtain ⟨before, after, htext, hbytes, hbefore⟩ := exists_append_of_cursor hsize hts hlegal
  rw [Token.first, ← hposition] at hbytes
  obtain ⟨more, hfaces, htokens⟩ := exists_tokens_append_spelling hspells before file
  refine ⟨before, after, spelling faces, htext, hbytes, ?_⟩
  rw [parse_eq]
  apply Grammar.errors_of_isProgram (Cursor.terminated_ofText _ file)
  rw [htokens, hbefore]
  exact hprogram more hfaces

/-- A token at which the first error stands is the one that it is blamed on. -/
theorem tokens_of_first_eq (hsize : text.utf8ByteSize < 2 ^ 32) {last : Cursor}
    (h : Grammar.FirstError (.ofText text file) err last) {pre post : List Token} {t : Token}
    (htokens : tokenize text file = pre ++ t :: post) (hkind : t.kind ≠ .endOfInput)
    (hfirst : t.first = err.position.offset.toNat) :
    ∃ post', last.tokens = t :: post' ∧ (Cursor.ofText text file).tokens = pre ++ t :: post' := by
  obtain ⟨hposition, ts, hts, -, -⟩ := h.viable (Cursor.terminated_ofText text file)
  have hsorted := (isTokenization_tokenize text file hsize).sorted
  rw [htokens] at hsorted
  rcases hlast : last.tokens with _ | ⟨u, post'⟩
  · obtain ⟨n, hn⟩ := h.exists_forward
    have heof : last.eof = .endOf text (file.getD Scanner.defaultLabel) := by
      rw [hn, Cursor.eof_forward, Cursor.eof_ofText]
    have hsplit : pre ++ t :: post = ts ++ .endOf text (file.getD Scanner.defaultLabel) :: [] := by
      rw [← htokens, tokenize_eq, hts, hlast, List.append_nil]
    have hkey : t.first = (Token.endOf text (file.getD Scanner.defaultLabel)).first := by
      rw [hfirst, hposition, Cursor.current, hlast, List.headD_nil, heof]
      rfl
    obtain ⟨-, rfl, -⟩ := eq_of_pairwise_lt hsorted hsplit hkey
    exact absurd rfl hkind
  · have hsplit : pre ++ t :: post =
        ts ++ u :: (post' ++ [.endOf text (file.getD Scanner.defaultLabel)]) := by
      rw [← htokens, tokenize_eq, hts, hlast, List.append_assoc, List.cons_append]
    have hkey : t.first = u.first := by
      rw [hfirst, hposition, Cursor.current_of_tokens hlast]
      rfl
    obtain ⟨rfl, rfl, -⟩ := eq_of_pairwise_lt hsorted hsplit hkey
    exact ⟨post', rfl, by rw [hts, hlast]⟩

/-- A list of tokens that do not end the text and that the tokens of the text start with. -/
theorem exists_tokens_of_prefix {f : Position → Position} {pre : List Token} {t : Token}
    (hkind : t.kind ≠ .endOfInput)
    (h : (pre ++ [t]).map (·.relocate f) <+: (tokenize text file).map (·.relocate f)) :
    ∃ more, (Cursor.ofText text file).tokens.map (·.relocate f) =
      (pre ++ [t]).map (·.relocate f) ++ more := by
  obtain ⟨more, hmore⟩ := h
  rw [tokenize_eq, @List.map_append _ _ _ (Cursor.ofText text file).tokens] at hmore
  rcases List.eq_nil_or_concat' more with rfl | ⟨more, u, rfl⟩
  · rw [List.append_nil, List.map_append] at hmore
    have hend := (List.append_inj' hmore rfl).2
    have hkind' := congrArg (fun ts => ts.map Token.kind) hend
    exact absurd (List.cons.inj hkind').1 hkind
  · rw [← List.append_assoc] at hmore
    exact ⟨more, (List.append_inj' hmore rfl).1.symm⟩

end texts

/-- **The first error stands as early as it can.** The text in front of it can be completed without an
error, so it could not have been reported earlier; and wherever the tokens up to the one that it is
blamed on are the same, the first error is the same. -/
theorem parse_first_error (text : String) (file : Option String) (hsize : text.utf8ByteSize < 2 ^ 32)
    {err : SyntaxError} {errs : List SyntaxError} (h : (parse text file).2 = err :: errs) :
    (∃ before after more, text = before ++ after ∧
      before.utf8ByteSize = err.position.offset.toNat ∧ (parse (before ++ more) file).2 = []) ∧
    ∀ pre t post, tokenize text file = pre ++ t :: post → t.kind ≠ .endOfInput →
      t.first = err.position.offset.toNat →
      ∀ text' file', (pre ++ [t]).map (·.relocate Position.unlabelled) <+:
          (tokenize text' file').map (·.relocate Position.unlabelled) →
        ∃ err' errs', (parse text' file').2 = err' :: errs' ∧ err'.cause = err.cause ∧
          err'.position.offset = err.position.offset := by
  rw [parse_eq] at h
  obtain ⟨last, hlast⟩ := Grammar.exists_firstError h
  refine ⟨exists_completion hsize hlast, ?_⟩
  intro pre t post htokens hkind hfirst text' file' hprefix
  obtain ⟨post', hlasttokens, hsplit⟩ := tokens_of_first_eq hsize hlast htokens hkind hfirst
  obtain ⟨more', hmore'⟩ := exists_tokens_of_prefix hkind hprefix
  have hshares : Grammar.Shares Position.unlabelled (post'.map (·.relocate Position.unlabelled))
      (.ofText text file) (.ofText text' file') := by
    refine ⟨_, more', ?_, ?_, hmore'⟩
    · rw [List.map_append]
      exact List.append_ne_nil_of_right_ne_nil _ (List.cons_ne_nil _ _)
    · rw [hsplit, ← List.map_append, List.append_assoc, List.singleton_append]
  have hin : ¬ last.tokens.length ≤ (post'.map (·.relocate Position.unlabelled)).length := by
    rw [hlasttokens, List.length_map, List.length_cons]
    omega
  obtain ⟨err', last', hfirst', heq⟩ :=
    hlast.of_related Grammar.shares_simulation hshares hin
  obtain ⟨errs', herrs'⟩ := hfirst'.exists_errors
  refine ⟨err', errs', ?_, (congrArg SyntaxError.cause heq).symm, ?_⟩
  · rw [parse_eq]
    exact herrs'
  · exact (congrArg (fun e => e.position.offset) heq).symm

/-- A group that is closed where its second operand should start, behind a statement that is complete. -/
theorem parse_first_error_in_group :
    "let a = é; !(b + ) c".utf8ByteSize < 2 ^ 32 ∧
    (parse "let a = é; !(b + ) c" none).2 = [⟨.noOperand .rightParen, ⟨18, "shell"⟩⟩] ∧
    (∃ before after more, "let a = é; !(b + ) c" = before ++ after ∧ before.utf8ByteSize = 18 ∧
      (parse (before ++ more) none).2 = []) ∧
    (tokenize "let a = é; !(b + ) c" none)[10]?.map (·.kind) = some .rightParen ∧
    ∃ err errs, (parse "let a = é; !(b + )- 09 )" (some "f")).2 = err :: errs ∧
      err.cause = .noOperand .rightParen ∧ err.position.offset = 18 := by
  have hsize : "let a = é; !(b + ) c".utf8ByteSize < 2 ^ 32 := by decide
  have herrors : (parse "let a = é; !(b + ) c" none).2 = [⟨.noOperand .rightParen, ⟨18, "shell"⟩⟩] := by
    decide
  obtain ⟨hcompletion, hsame⟩ := parse_first_error "let a = é; !(b + ) c" none hsize herrors
  have htokens : tokenize "let a = é; !(b + ) c" none =
      (tokenize "let a = é; !(b + ) c" none).take 10 ++
        ⟨.rightParen, ")", .ofRange "shell" 18 19⟩ ::
          (tokenize "let a = é; !(b + ) c" none).drop 11 := by decide
  refine ⟨hsize, herrors, hcompletion, by decide, ?_⟩
  exact hsame _ _ _ htokens (by decide) rfl _ _ (by decide)

end Prattle
