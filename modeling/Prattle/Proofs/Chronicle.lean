import Prattle.Proofs.Calls

/-!
# The log is one merge of three streams

A parser logs the tokens that it scans, the errors that it records and the statements that it reads. It scans
one token ahead, so which tokens stand in front of an error or a statement in the log is settled by where the
parser stood then: by the `Log.Note`s that a reading leaves (`Reading.notes`).

* **The log is the tokens with the notes among them**, each behind the tokens that were in view at its place
  (`Log.merged`). Every step of a parser writes such a piece (`Parser.Writes`), and two pieces make one
  (`Parser.Writes.trans`).
* **A program writes the notes of its readings** and scans the tokens up to the end
  (`Parser.writes_foldl_pass`).
* What that says of the log of a text is `log_of_parsing`.
-/

namespace Prattle

namespace Log

/-- The error that was found. -/
def Record.error? : Record → Option SyntaxError
  | failed e => some e
  | _ => none

/-- The statement that was read. -/
def Record.statement? : Record → Option Stmt
  | parsed s => some s
  | _ => none

/-- A record that is no token, and the place of the token that the parser stood on. -/
structure Note where
  place : Nat
  record : Record

/-! ### Merging -/

/-- The tokens that come into view from place `i` to place `j`. -/
def between (ts : List Token) (i j : Nat) : List Token :=
  (ts.drop (i + Parser.window)).take (j - i)

/-- The records from place `i` to place `j` with the notes on the way, the first one first. -/
def merged (ts : List Token) : Nat → List Note → Nat → List Record
  | i, [], j => (between ts i j).map .scanned
  | i, note :: notes, j =>
    (between ts i note.place).map .scanned ++ note.record :: merged ts note.place notes j

/-- The notes are in order, and between the places `i` and `j`. -/
def Ascends : Nat → List Note → Nat → Prop
  | i, [], j => i ≤ j
  | i, note :: notes, j => i ≤ note.place ∧ Ascends note.place notes j

variable {ts : List Token} {i j k : Nat} {ns ms : List Note}

/-- Nothing comes into view without a step. -/
theorem between_self (ts : List Token) (i : Nat) : between ts i i = [] := by
  rw [between, Nat.sub_self, List.take_zero]

/-- What comes into view on two stretches of the way, one behind the other, comes into view on both
together. -/
theorem between_append (hij : i ≤ j) (hjk : j ≤ k) : between ts i j ++ between ts j k = between ts i k := by
  have hdrop : j + Parser.window = i + Parser.window + (j - i) := by omega
  have htake : k - i = j - i + (k - j) := by omega
  rw [between, between, between, htake, List.take_add, hdrop, List.drop_drop]

/-- The tokens in view at the start and those that came into view up to a place. -/
theorem take_append_between (ts : List Token) (j : Nat) :
    ts.take Parser.window ++ between ts 0 j = ts.take (j + Parser.window) := by
  rw [between, Nat.sub_zero, Nat.zero_add, Nat.add_comm, List.take_add]

/-- Notes that start no earlier than some place start no earlier than any place in front of it. -/
theorem Ascends.mono (h : Ascends j ns k) (hij : i ≤ j) : Ascends i ns k := by
  cases ns with
  | nil => exact hij.trans h
  | cons note ns => exact ⟨hij.trans h.1, h.2⟩

/-- Notes that ascend from one place to another one lead forward. -/
theorem Ascends.le (h : Ascends i ns j) : i ≤ j := by
  induction ns generalizing i with
  | nil => exact h
  | cons note ns ih => exact h.1.trans (ih h.2)

/-- Notes that ascend up to a place can be gone on with from there. -/
theorem Ascends.append (h : Ascends i ns j) (h' : Ascends j ms k) : Ascends i (ns ++ ms) k := by
  induction ns generalizing i with
  | nil => exact h'.mono h
  | cons note ns ih => exact ⟨h.1, ih h.2⟩

/-- The notes in front of a note ascend to its place. -/
theorem Ascends.of_append_cons {note : Note} (h : Ascends i (ns ++ note :: ms) j) :
    Ascends i ns note.place := by
  induction ns generalizing i with
  | nil => exact h.1
  | cons first ns ih => exact ⟨h.1, ih h.2⟩

/-- What is merged from a later place on goes on behind the tokens up to there. -/
theorem between_append_merged (hij : i ≤ j) (h : Ascends j ns k) :
    (between ts i j).map .scanned ++ merged ts j ns k = merged ts i ns k := by
  cases ns with
  | nil => rw [merged, merged, ← List.map_append, between_append hij h]
  | cons note ns => rw [merged, merged, ← List.append_assoc, ← List.map_append, between_append hij h.1]

/-- **Two pieces of a log make one.** -/
theorem merged_append (h : Ascends i ns j) (h' : Ascends j ms k) :
    merged ts i (ns ++ ms) k = merged ts i ns j ++ merged ts j ms k := by
  induction ns generalizing i with
  | nil => exact (between_append_merged h h').symm
  | cons note ns ih =>
    rw [List.cons_append, merged, merged, ih h.2, List.append_assoc, List.cons_append]

/-- **A note stands behind what is merged up to its place.** -/
theorem merged_append_cons (ts : List Token) (i j : Nat) (ns ms : List Note) (note : Note) :
    merged ts i (ns ++ note :: ms) j =
      merged ts i ns note.place ++ note.record :: merged ts note.place ms j := by
  induction ns generalizing i with
  | nil => rfl
  | cons first ns ih => rw [List.cons_append, merged, merged, ih, List.append_assoc, List.cons_append]

/-- What a text whose tokens are `ts` leaves in the log up to place `j`: the tokens in view at the start
come first. -/
def written (ts : List Token) (ns : List Note) (j : Nat) : List Record :=
  (ts.take Parser.window).map .scanned ++ merged ts 0 ns j

/-- A note is written behind what was written in front of it, and what follows is written behind the
note. -/
theorem written_append_cons (ts : List Token) (ns ms : List Note) (note : Note) (j : Nat) :
    written ts (ns ++ note :: ms) j =
      written ts ns note.place ++ note.record :: merged ts note.place ms j := by
  rw [written, merged_append_cons, ← List.append_assoc, ← written]

/-! ### Taking the streams apart again -/

/-- The records of one sort are made of what is picked of them. -/
theorem filter_isSome {α : Type} {pick : Record → Option α} (make : α → Record)
    (hmake : ∀ r a, pick r = some a → r = make a) (l : List Record) :
    l.filter (fun r => (pick r).isSome) = (l.filterMap pick).map make := by
  induction l with
  | nil => rfl
  | cons r l ih =>
    rcases hr : pick r with _ | a
    · rw [List.filter_cons, List.filterMap_cons, hr]
      exact ih
    · rw [List.filter_cons, List.filterMap_cons, hr, List.map_cons, ← hmake r a hr, ← ih]
      rfl

/-- **The fine records are those of the tokens.** -/
theorem filter_trace (l : List Record) :
    l.filter (·.level = "TRACE") = (l.filterMap Record.token?).map .scanned := by
  have hlevel : ∀ r : Record, decide (r.level = "TRACE") = r.token?.isSome := by
    rintro (_ | _ | _) <;> rfl
  rw [List.filter_congr fun r _ => hlevel r, filter_isSome .scanned]
  rintro (t | _ | _) a ⟨⟩
  rfl

/-- The messages about errors tell of each its place and what it is. -/
theorem messages_of_errors (l : List Record) :
    (l.filter (·.error?.isSome)).map Record.message = (l.filterMap Record.error?).map fun e =>
      "parse error at " ++ toString e.position.offset.toNat ++ ": " ++ e.message := by
  rw [filter_isSome .failed, List.map_map]
  · rfl
  · rintro (_ | e | _) _ ⟨⟩
    rfl

/-- The messages about statements show each in the canonical form. -/
theorem messages_of_statements (l : List Record) :
    (l.filter (·.statement?.isSome)).map Record.message = (l.filterMap Record.statement?).map fun s =>
      "parsed statement `" ++ s.render ++ "`" := by
  rw [filter_isSome .parsed, List.map_map]
  · rfl
  · rintro (_ | _ | s) _ ⟨⟩
    rfl

/-- Nothing is picked out of records of scanning by what gives nothing on them. -/
theorem filterMap_scanned {α : Type} {pick : Record → Option α} (hpick : ∀ t, pick (.scanned t) = none)
    (ts : List Token) : (ts.map Record.scanned).filterMap pick = [] := by
  rw [List.filterMap_map, List.filterMap_eq_nil_iff]
  exact fun t _ => hpick t

/-- **What is picked of the records, and of no token, is picked of the notes.** -/
theorem filterMap_merged {α : Type} {pick : Record → Option α} (hpick : ∀ t, pick (.scanned t) = none)
    (ts : List Token) (i j : Nat) (ns : List Note) :
    (merged ts i ns j).filterMap pick = ns.filterMap fun note => pick note.record := by
  induction ns generalizing i with
  | nil => exact filterMap_scanned hpick _
  | cons note ns ih =>
    rw [merged, List.filterMap_append, filterMap_scanned hpick, List.nil_append, List.filterMap_cons,
      List.filterMap_cons, ih]

/-- **The tokens of a piece of a log are those that came into view.** -/
theorem filterMap_token?_merged (h : Ascends i ns j) (hns : ∀ note ∈ ns, note.record.token? = none) :
    (merged ts i ns j).filterMap Record.token? = between ts i j := by
  induction ns generalizing i with
  | nil => exact filterMap_token?_scanned _
  | cons note ns ih =>
    obtain ⟨hnote, hns⟩ := List.forall_mem_cons.mp hns
    rw [merged, List.filterMap_append, filterMap_token?_scanned, List.filterMap_cons, hnote]
    dsimp only
    rw [ih h.2 hns, between_append h.1 h.2.le]

/-- **What is picked of a log, and of no token, is picked of the notes.** -/
theorem filterMap_written {α : Type} {pick : Record → Option α} (hpick : ∀ t, pick (.scanned t) = none)
    (ts : List Token) (ns : List Note) (j : Nat) :
    (written ts ns j).filterMap pick = ns.filterMap fun note => pick note.record := by
  rw [written, List.filterMap_append, filterMap_scanned hpick, List.nil_append, filterMap_merged hpick]

/-- **Up to a place, the tokens up to the next one were scanned.** -/
theorem filter_trace_written (h : Ascends 0 ns j) (hns : ∀ note ∈ ns, note.record.token? = none) :
    (written ts ns j).filter (·.level = "TRACE") = (ts.take (j + Parser.window)).map .scanned := by
  rw [filter_trace, written, List.filterMap_append, filterMap_token?_scanned,
    filterMap_token?_merged h hns, take_append_between]

/-- **The coarse records are the notes.** -/
theorem filter_debug_written (hns : ∀ note ∈ ns, note.record.level = "DEBUG") :
    (written ts ns j).filter (·.level = "DEBUG") = ns.map (·.record) := by
  rw [← List.filterMap_eq_filter, filterMap_written fun t => rfl, ← List.filterMap_eq_map]
  refine List.filterMap_congr fun note hnote => ?_
  rw [Option.guard, decide_eq_true (hns note hnote)]
  rfl

end Log

/-! ### What readings leave in the log -/

namespace Reading

/-- The note that a statement failed, where it did. -/
def failed {α : Type} (r : Reading α) : List Log.Note :=
  (r.failure?.map fun f => ⟨f.cursor.index, .failed f.error⟩).toList

/-- The note that a statement was read, where it ended. -/
def parsed (r : Reading (Option Stmt)) : List Log.Note :=
  (r.value.map fun s => ⟨r.cursor.index, .parsed s⟩).toList

/-- What the reading of a statement leaves in the log besides the tokens. -/
def notes (r : Reading (Option Stmt)) : List Log.Note :=
  r.failed ++ r.parsed

variable {r : Reading (Option Stmt)} {rs : List (Reading (Option Stmt))}

/-- No note of a reading is the record of a token. -/
theorem token?_of_mem_notes : ∀ note ∈ r.notes, note.record.token? = none := by
  obtain ⟨_ | s, _ | f, c⟩ := r <;> simp [notes, failed, parsed, Log.Record.token?]

/-- All notes of a reading are there for debugging. -/
theorem level_of_mem_notes : ∀ note ∈ r.notes, note.record.level = "DEBUG" := by
  obtain ⟨_ | s, _ | f, c⟩ := r <;> simp [notes, failed, parsed, Log.Record.level]

/-- The errors in the notes of readings are the errors of the readings. -/
theorem filterMap_error?_notes (rs : List (Reading (Option Stmt))) :
    (rs.flatMap notes).filterMap (·.record.error?) = errors rs := by
  induction rs with
  | nil => rfl
  | cons r rs ih =>
    rw [List.flatMap_cons, List.filterMap_append, ih, errors_cons]
    obtain ⟨_ | s, _ | f, c⟩ := r <;> rfl

/-- The statements in the notes of readings are the values of the readings. -/
theorem filterMap_statement?_notes (rs : List (Reading (Option Stmt))) :
    (rs.flatMap notes).filterMap (·.record.statement?) = values rs := by
  induction rs with
  | nil => rfl
  | cons r rs ih =>
    rw [List.flatMap_cons, List.filterMap_append, ih, values_cons]
    obtain ⟨_ | s, _ | f, c⟩ := r <;> rfl

end Reading

/-! ### What a parser writes -/

namespace Parser

open Log (Note Ascends merged between)

/-- From the one parser to the other, the notes and the tokens that came into view were logged. The tokens
of the text are `ts`. -/
structure Writes (ts : List Token) (p : Parser) (ns : List Note) (q : Parser) : Prop where
  place : q.cursor.tokens = ts.drop q.cursor.index
  ascends : Ascends p.cursor.index ns q.cursor.index
  log : q.log.toList = p.log.toList ++ merged ts p.cursor.index ns q.cursor.index

variable {ts : List Token} {p q r : Parser} {ns ms : List Note}

/-- A parser that does nothing writes nothing. -/
theorem Writes.refl (hp : p.cursor.tokens = ts.drop p.cursor.index) : Writes ts p [] p where
  place := hp
  ascends := Nat.le_refl _
  log := by rw [merged, Log.between_self, List.map_nil, List.append_nil]

/-- What is written on two stretches, one behind the other, is written in this order. -/
theorem Writes.trans (h : Writes ts p ns q) (h' : Writes ts q ms r) : Writes ts p (ns ++ ms) r where
  place := h'.place
  ascends := h.ascends.append h'.ascends
  log := by
    rw [h'.log, h.log, List.append_assoc, Log.merged_append h.ascends h'.ascends]

/-- A parser that moves on writes no note, only the tokens that come into view. -/
theorem writes_moveTo (hp : p.cursor.tokens = ts.drop p.cursor.index) (n : Nat) :
    Writes ts p [] (p.moveTo (p.cursor.forward n)) where
  place := by
    show (p.cursor.forward n).tokens = ts.drop (p.cursor.forward n).index
    rw [Cursor.tokens_forward, hp, List.drop_drop, Cursor.index_forward]
  ascends := Nat.le_add_right _ _
  log := by
    rw [moveTo, merged, between, ← List.drop_drop, ← hp]
    exact Array.toList_appendList

/-- A parser that logs a note stays where it is. -/
theorem writes_push {record : Log.Record} (hp : p.cursor.tokens = ts.drop p.cursor.index)
    (hcursor : q.cursor = p.cursor) (hlog : q.log = p.log.push record) :
    Writes ts p [⟨p.cursor.index, record⟩] q where
  place := by rw [hcursor, hp]
  ascends := by
    rw [hcursor]
    exact ⟨Nat.le_refl _, Nat.le_refl _⟩
  log := by
    rw [hlog, Array.toList_push, hcursor, merged, merged, Log.between_self]
    rfl

/-- Taking a reading writes a note of its failure, where it failed. -/
theorem writes_take {α : Type} {r : Reading α} (hp : p.cursor.tokens = ts.drop p.cursor.index)
    (hr : r.Follows p.cursor) : Writes ts p r.failed (p.take r).2 := by
  obtain ⟨m, n, hfailure, hcursor⟩ := hr
  unfold take Reading.failed
  rcases hf : r.failure? with _ | f
  · dsimp only
    rw [hcursor]
    exact writes_moveTo hp _
  · have hmoved := writes_moveTo hp m
    rw [← hfailure f hf] at hmoved
    have hrecorded := hmoved.trans (writes_push (q := (p.moveTo f.cursor).record f.error) hmoved.place rfl rfl)
    have hlast : r.cursor = f.cursor.forward n := by
      rw [hcursor, hfailure f hf, Cursor.forward_forward]
    dsimp only
    rw [hlast]
    exact hrecorded.trans (writes_moveTo hrecorded.place n)

/-- One step writes no note. -/
theorem writes_advance (hp : p.cursor.tokens = ts.drop p.cursor.index) : Writes ts p [] p.advance :=
  writes_moveTo hp 1

/-- **A statement writes its notes**, and one more token comes into view behind it. -/
theorem writes_pass {r : Reading (Option Stmt)} (hp : p.cursor.tokens = ts.drop p.cursor.index)
    (hr : r.Follows p.cursor) : Writes ts p r.notes (p.pass r) := by
  have htake := writes_take hp hr
  have hcursor := (follows_take hr).2
  have hvalue := p.take_fst r
  unfold pass Reading.notes Reading.parsed
  rcases hs : p.take r with ⟨s?, q⟩
  rw [hs] at htake hcursor hvalue
  have hvalue : r.value = s? := hvalue.symm
  rw [hvalue, ← show q.cursor = r.cursor from hcursor]
  rcases s? with _ | s
  · exact htake.trans (writes_advance htake.place)
  · have hannounced := htake.trans (writes_push (q := q.announce s) htake.place rfl rfl)
    have hadvanced := hannounced.trans (writes_advance hannounced.place)
    rwa [List.append_nil] at hadvanced

/-- **A program writes the notes of its statements**, and is over when no token is left. -/
theorem writes_foldl_pass {g : Grammar} (hp : p.cursor.tokens = ts.drop p.cursor.index) :
    Writes ts p ((g.statements p.cursor).flatMap Reading.notes) ((g.statements p.cursor).foldl pass p) ∧
      ((g.statements p.cursor).foldl pass p).cursor.atEnd = true := by
  generalize hn : p.cursor.tokens.length = n
  induction n using Nat.strongRecOn generalizing p with
  | ind n ih =>
    subst hn
    rcases hend : p.cursor.atEnd with _ | _
    · have hfollows := (g.statement_spec p.cursor).1
      have hpass := writes_pass hp hfollows
      have hcursor := (follows_pass hfollows).2
      have hlt := g.length_advance_statement_lt hend
      rw [← hcursor] at hlt
      obtain ⟨hrest, hlast⟩ := ih _ hlt hpass.place rfl
      rw [hcursor] at hrest hlast
      rw [Grammar.statements_of_not_atEnd hend, List.flatMap_cons, List.foldl_cons]
      exact ⟨hpass.trans hrest, hlast⟩
    · rw [Grammar.statements_of_atEnd hend]
      exact ⟨.refl hp, hend⟩

end Parser

namespace Grammar

/-- Every reading is that of the statement some steps on. -/
theorem exists_eq_statement_of_mem {g : Grammar} {c : Cursor} :
    ∀ r ∈ g.statements c, ∃ n, r = g.statement (c.forward n) := by
  induction c using g.statements_induction with
  | atEnd c hend =>
    rw [statements_of_atEnd hend]
    exact fun r hr => absurd hr List.not_mem_nil
  | statement c hend ih =>
    rw [statements_of_not_atEnd hend, List.forall_mem_cons]
    refine ⟨⟨0, by rw [Cursor.forward_zero]⟩, fun r hr => ?_⟩
    obtain ⟨n, rfl⟩ := ih r hr
    obtain ⟨m, hm⟩ := g.exists_advance_eq_forward c
    rw [hm, Cursor.forward_forward]
    exact ⟨_, rfl⟩

/-- **The index of a cursor is where it stands in the text**, at the end of a statement and where one failed. -/
theorem forward_index_of_mem {g : Grammar} {c : Cursor} (hc : c.index = 0) :
    ∀ r ∈ g.statements c, c.forward r.cursor.index = r.cursor ∧
      ∀ f ∈ r.failure?, c.forward f.cursor.index = f.cursor := by
  have hindex : ∀ n, c.forward (c.forward n).index = c.forward n := by
    intro n
    rw [Cursor.index_forward, hc, Nat.zero_add]
  intro r hr
  obtain ⟨k, rfl⟩ := exists_eq_statement_of_mem r hr
  obtain ⟨m, n, hfailure, hcursor⟩ := (g.statement_spec (c.forward k)).1
  refine ⟨?_, fun f hf => ?_⟩
  · rw [hcursor, Cursor.forward_forward, hindex]
  · rw [hfailure f hf, Cursor.forward_forward, hindex]

/-- Where the place of an expression stays empty, there is a failure. -/
theorem exists_failure_of_empty {g : Grammar} {c : Cursor} {t : Token} {span : Span}
    (h : (g.statement c).value = some (.expression t none span)) :
    ∃ f, (g.statement c).failure? = some f := by
  have herrors := (g.statement_spec c).2
  rw [h, Option.all_some, Stmt.isEmptyExpression, Option.isNone_none, if_pos rfl] at herrors
  rcases hf : (g.statement c).failure? with _ | f
  · rw [hf] at herrors
    cases herrors
  · exact ⟨f, rfl⟩

end Grammar

/-- The notes that a text leaves in the log. -/
def Log.notes (text : String) (file : Option String) : List Log.Note :=
  (Grammar.standard.statements (.ofText text file)).flatMap Reading.notes

namespace Log

variable {text : String} {file : Option String}

/-- What holds of the notes of every reading holds of the notes of a text. -/
theorem forall_mem_notes {P : Note → Prop} (h : ∀ r : Reading (Option Stmt), ∀ note ∈ r.notes, P note) :
    ∀ note ∈ notes text file, P note := by
  intro note hnote
  obtain ⟨r, -, hr⟩ := List.mem_flatMap.mp hnote
  exact h r note hr

/-- **The log of a text is its tokens with the notes among them**, up to a place where all were scanned. -/
theorem ofParsing_eq (text : String) (file : Option String) :
    ∃ last, (Cursor.ofText text file).tokens.length ≤ last ∧ Ascends 0 (notes text file) last ∧
      ofParsing text file = written (Cursor.ofText text file).tokens (notes text file) last := by
  obtain ⟨hwrites, hend⟩ :=
    @Parser.writes_foldl_pass (Cursor.ofText text file).tokens (.ofText text file) .standard rfl
  refine ⟨_, ?_, hwrites.ascends, hwrites.log⟩
  rw [Cursor.atEnd, List.isEmpty_iff, hwrites.place, List.drop_eq_nil_iff] at hend
  exact hend

/-- **In front of a note** are the notes before it, and the tokens up to the one behind its place. -/
theorem filter_before (earlier later : List Note) (note : Note)
    (hnotes : notes text file = earlier ++ note :: later) :
    let before := written (Cursor.ofText text file).tokens earlier note.place
    (∃ last, ofParsing text file =
      before ++ note.record :: merged (Cursor.ofText text file).tokens note.place later last) ∧
    before.filter (·.level = "TRACE") = (ofTokenizing text file).take (note.place + 2) ∧
    before.filter (·.level = "DEBUG") = earlier.map (·.record) := by
  intro before
  obtain ⟨last, -, hascends, hlog⟩ := ofParsing_eq text file
  rw [hnotes] at hascends hlog
  have hearlier : ∀ {P : Note → Prop}, (∀ n ∈ notes text file, P n) → ∀ n ∈ earlier, P n := by
    intro P hP n hn
    exact hP n (hnotes ▸ List.mem_append_left _ hn)
  refine ⟨⟨last, ?_⟩, ?_, ?_⟩
  · rw [hlog, written_append_cons]
  · rw [filter_trace_written hascends.of_append_cons
      (hearlier (forall_mem_notes @Reading.token?_of_mem_notes)), List.map_take]
    rfl
  · exact filter_debug_written (hearlier (forall_mem_notes @Reading.level_of_mem_notes))

/-- **When the place of an expression stays empty, its error is logged right in front of it**, but for tokens. -/
theorem exists_between_of_empty {earlier later : List (Reading (Option Stmt))} {r : Reading (Option Stmt)}
    {t : Token} {span : Span} (hreadings : Grammar.standard.statements (.ofText text file) =
      earlier ++ r :: later) (hvalue : r.value = some (.expression t none span)) :
    ∃ f ∈ r.failure?, ∃ before between after,
      ofParsing text file =
        before ++ .failed f.error :: (between ++ .parsed (.expression t none span) :: after) ∧
      before.filter (·.level = "DEBUG") = (earlier.flatMap Reading.notes).map (·.record) ∧
      ∀ record ∈ between, record.level = "TRACE" := by
  obtain ⟨f, hf⟩ : ∃ f, r.failure? = some f := by
    obtain ⟨k, rfl⟩ := Grammar.exists_eq_statement_of_mem r
      (hreadings ▸ List.mem_append_right _ List.mem_cons_self)
    exact Grammar.exists_failure_of_empty hvalue
  have hnotes : notes text file = earlier.flatMap Reading.notes ++ ⟨f.cursor.index, .failed f.error⟩ ::
      ⟨r.cursor.index, .parsed (.expression t none span)⟩ :: later.flatMap Reading.notes := by
    rw [notes, hreadings, List.flatMap_append, List.flatMap_cons, Reading.notes, Reading.failed,
      Reading.parsed, hf, hvalue]
    rfl
  obtain ⟨⟨last, hlog⟩, -, hdebug⟩ := filter_before _ _ _ hnotes
  refine ⟨f, hf, _, _, _, hlog, hdebug, ?_⟩
  intro record hrecord
  obtain ⟨t, -, rfl⟩ := List.mem_map.mp hrecord
  rfl

end Log

/-- **The log of a parse is one merge of three streams**: the tokens as they are logged when the text is only
cut into tokens, the errors that are returned and the statements that are returned, each in their order and
each once. How they are merged is settled by the readings: an error and a statement have a place, that of the
token the parser stood on when it failed and when the statement was read, and in front of them are the notes
that were made before and the tokens up to the one behind that place. When the place of an expression
statement stays empty, its error is logged in front of it, with nothing but tokens in between. -/
theorem log_of_parsing (text : String) (file : Option String) :
    let log := Log.ofParsing text file
    let start := Cursor.ofText text file
    let readings := Grammar.standard.statements start
    log.filter (·.level = "TRACE") = Log.ofTokenizing text file ∧
    log.filterMap Log.Record.error? = (parse text file).2 ∧
    log.filterMap Log.Record.statement? = (parse text file).1.statements ∧
    (log.filter (·.error?.isSome)).map Log.Record.message = (parse text file).2.map (fun e =>
      "parse error at " ++ toString e.position.offset.toNat ++ ": " ++ e.message) ∧
    (log.filter (·.statement?.isSome)).map Log.Record.message = (parse text file).1.statements.map (fun s =>
      "parsed statement `" ++ s.render ++ "`") ∧
    (∀ r ∈ readings, start.forward r.cursor.index = r.cursor ∧
      ∀ f ∈ r.failure?, start.forward f.cursor.index = f.cursor) ∧
    (∀ earlier note later, readings.flatMap Reading.notes = earlier ++ note :: later →
      ∃ before after, log = before ++ note.record :: after ∧
        before.filter (·.level = "TRACE") = (Log.ofTokenizing text file).take (note.place + 2) ∧
        before.filter (·.level = "DEBUG") = earlier.map (·.record)) ∧
    ∀ earlier r later t span, readings = earlier ++ r :: later →
      r.value = some (.expression t none span) →
      ∃ f ∈ r.failure?, ∃ before between after,
        log = before ++ .failed f.error :: (between ++ .parsed (.expression t none span) :: after) ∧
        before.filter (·.level = "DEBUG") = (earlier.flatMap Reading.notes).map (·.record) ∧
        ∀ record ∈ between, record.level = "TRACE" := by
  intro log start readings
  obtain ⟨last, hlast, hascends, hlog⟩ := Log.ofParsing_eq text file
  have hlog : log = Log.written start.tokens (Log.notes text file) last := hlog
  -- the traced tokens are neither errors nor statements, so only the notes are left
  have herrors : log.filterMap Log.Record.error? = (parse text file).2 := by
    rw [hlog, Log.filterMap_written fun t => rfl, parse_eq]
    exact Reading.filterMap_error?_notes readings
  have hstatements : log.filterMap Log.Record.statement? = (parse text file).1.statements := by
    rw [hlog, Log.filterMap_written fun t => rfl, parse_eq]
    exact Reading.filterMap_statement?_notes readings
  refine ⟨?_, herrors, hstatements, ?_, ?_, Grammar.forward_index_of_mem rfl, ?_, ?_⟩
  · rw [hlog, Log.filter_trace_written hascends (Log.forall_mem_notes @Reading.token?_of_mem_notes),
      List.take_of_length_le (hlast.trans (Nat.le_add_right _ _))]
    rfl
  · rw [Log.messages_of_errors, herrors]
  · rw [Log.messages_of_statements, hstatements]
  · intro earlier note later hnotes
    obtain ⟨⟨last, hlog⟩, hfilter⟩ := Log.filter_before earlier later note hnotes
    exact ⟨_, _, hlog, hfilter⟩
  · exact fun earlier r later t span => Log.exists_between_of_empty

end Prattle
