import Mathlib.Data.List.Induction
import Mathlib.Data.List.InsertIdx
import Prattle.Proofs.Calls
import Prattle.Token.Reader

/-!
# A reader is its history

A reader is asked for tokens in two ways, and at any time it can be kept and be taken up again later.
`Reader.Call` is one question, `Session` holds the reader in use together with those that are kept, and
`Session.Request` is what can happen to them. What a session holds is left open: `Session.run` moves readers
as well as the lists of calls that were made on them.

* **Whichever way it is asked, a reader goes on in its text** by as many tokens as it gives
  (`Reader.scanner_run`), and only `next?` ends `next?` (`Reader.finished_run_iff`).
* **Draining a reader is asking it with `next?` until it gives nothing** (`Reader.drain_eq`).
* **So a history decides what comes next** (`Reader.answer_run_eq_none_iff`, `Reader.answer_run_eq_some`),
  and the tokens of a history are the first ones of the text (`Reader.returned_ofText`).
* **Every reader of a session is what its own history makes of a fresh one** (`session_histories`), because
  keeping and taking up move readers and histories alike (`Session.run_map`).
-/

namespace Prattle

namespace Reader

/-! ### Questions -/

/-- The two ways to ask a reader for a token. -/
inductive Call where
  | nextToken
  | next
  deriving DecidableEq, Inhabited

/-- What a reader gives when it is asked. -/
def answer (r : Reader) : Call → Option Token
  | .nextToken => some r.nextToken.1
  | .next => r.next?.map Prod.fst

/-- The reader after it was asked. One that gives nothing has no other state to go to. -/
def perform (r : Reader) : Call → Reader
  | .nextToken => r.nextToken.2
  | .next => r.next?.elim r Prod.snd

/-- The reader after calls, the first one first. -/
def run (r : Reader) (calls : List Call) : Reader :=
  calls.foldl perform r

/-- The tokens that the reader gives on calls, in whichever way it is asked. -/
def returned (r : Reader) : List Call → List Token
  | [] => []
  | call :: calls => (r.answer call).toList ++ (r.perform call).returned calls

/-- With one of the calls, `next?` gave the end token. -/
def HasEnded (r : Reader) (calls : List Call) : Prop :=
  ∃ front back t, calls = front ++ .next :: back ∧ (r.run front).answer .next = some t ∧
    t.kind = .endOfInput

/-! ### One call -/

/-- **A reader gives the next token of its text**, unless `next?` has ended. -/
theorem answer_eq (r : Reader) (call : Call) :
    r.answer call =
      if call = .next ∧ r.finished = true then none else some r.scanner.nextToken.1 := by
  cases call with
  | nextToken => rfl
  | next =>
    unfold answer next?
    by_cases h : r.finished = true
    · simp [h]
    · simp [h]

/-- A call takes the reader on by the token that it gives, if it gives one. -/
theorem scanner_perform (r : Reader) (call : Call) :
    (r.perform call).scanner = r.scanner.after (r.answer call).toList.length := by
  cases call with
  | nextToken => rfl
  | next =>
    unfold perform answer next?
    by_cases h : r.finished = true
    · simp [h, Scanner.after]
    · simp [h, Scanner.after]

/-- Only a `next?` that gives the end token ends `next?`, and it stays ended. -/
theorem finished_perform_iff (r : Reader) (call : Call) :
    (r.perform call).finished = true ↔
      r.finished = true ∨ ∃ t, call = .next ∧ r.answer call = some t ∧ t.kind = .endOfInput := by
  cases call with
  | nextToken => simp [perform, nextToken]
  | next =>
    unfold perform answer next?
    by_cases h : r.finished = true
    · simp [h]
    · simp [h, Token.isEnd]

/-- **A call that gives nothing changes nothing.** -/
theorem perform_of_answer_eq_none {r : Reader} {call : Call} (h : r.answer call = none) :
    r.perform call = r := by
  cases call with
  | nextToken => cases h
  | next => rw [perform, Option.map_eq_none_iff.mp h, Option.elim_none]

/-! ### Reading to the end -/

/-- Nothing is drained from a reader that gives nothing. -/
theorem drain_of_next?_eq_none {r : Reader} (h : r.next? = none) : r.drain = ([], r) := by
  have hfinished : r.finished = true := by
    unfold next? at h
    split at h
    · assumption
    · cases h
  rw [drain, if_pos hfinished]

/-- **The next token is the first one that is drained**, and the others are drained from the reader behind
it. -/
theorem drain_of_next?_eq_some {r r' : Reader} {t : Token} (h : r.next? = some (t, r')) :
    r.drain = (t :: r'.drain.1, r'.drain.2) := by
  have hopen : ¬ r.finished = true := by
    intro hfinished
    simp [next?, hfinished] at h
  rw [next?, if_neg hopen] at h
  rw [drain, if_neg hopen]
  rcases hs : r.scanner.step? with _ | ⟨t, s'⟩
  · -- only the end token is left, and behind it the reader is where draining leaves it
    rw [Scanner.nextToken_of_end hs, Scanner.skipBlanks_of_end hs] at h
    cases h
    simp only [Scanner.tokens_of_end hs]
    rfl
  · have hmem : t ∈ r.scanner.tokens := Scanner.tokens_of_step? hs ▸ List.mem_cons_self
    have ht : t.isEnd = false := decide_eq_false (Scanner.kind_ne_endOfInput t hmem)
    obtain ⟨hfile, hoffset⟩ := Scanner.step?_offset_add_length hs
    rw [Scanner.nextToken_of_step? hs] at h
    cases h
    simp only [Scanner.tokens_of_step? hs, drain, ht, Scanner.step?_endToken hs, hfile, hoffset]
    rfl

/-- **What is drained from a reader is what `next?` gives it**, asked until it gives nothing. -/
theorem drain_eq (r : Reader) :
    let calls := List.replicate r.drain.1.length Call.next
    r.drain = (r.returned calls, r.run calls) ∧ (r.run calls).answer .next = none := by
  induction hn : r.drain.1.length generalizing r with
  | zero =>
    rcases hnext : r.next? with _ | ⟨t, r'⟩
    · exact ⟨drain_of_next?_eq_none hnext, by simp [run, answer, hnext]⟩
    · simp [drain_of_next?_eq_some hnext] at hn
  | succ n ih =>
    rcases hnext : r.next? with _ | ⟨t, r'⟩
    · simp [drain_of_next?_eq_none hnext] at hn
    · have hdrain := drain_of_next?_eq_some hnext
      obtain ⟨hrest, hnone⟩ := ih r' (by simpa [hdrain] using hn)
      have hperform : r.perform .next = r' := by simp [perform, hnext]
      have hanswer : r.answer .next = some t := by simp [answer, hnext]
      have hrun : r.run (List.replicate (n + 1) .next) = r'.run (List.replicate n .next) :=
        congrArg (run · (List.replicate n .next)) hperform
      refine ⟨?_, hrun ▸ hnone⟩
      rw [hdrain, hrest, hrun, List.replicate_succ, returned, hperform, hanswer]
      rfl

/-! ### Histories -/

section histories

variable (r : Reader)

/-- Calls can be made in two parts. -/
theorem run_append (front back : List Call) : r.run (front ++ back) = (r.run front).run back :=
  List.foldl_append

/-- The last call is made on the reader that the others lead to. -/
theorem run_concat (calls : List Call) (call : Call) :
    r.run (calls ++ [call]) = (r.run calls).perform call := by
  rw [run_append]
  rfl

/-- The tokens of two parts are those of the first and then those of the second. -/
theorem returned_append (front back : List Call) :
    r.returned (front ++ back) = r.returned front ++ (r.run front).returned back := by
  induction front generalizing r with
  | nil => rfl
  | cons call front ih =>
    rw [List.cons_append, returned, returned, ih, List.append_assoc]
    rfl

/-- The last call gives its token, if any, behind the others. -/
theorem returned_concat (calls : List Call) (call : Call) :
    r.returned (calls ++ [call]) = r.returned calls ++ ((r.run calls).answer call).toList := by
  rw [returned_append, returned, returned, List.append_nil]

/-- **A reader has gone on by as many tokens as it gave.** -/
theorem scanner_run (calls : List Call) :
    (r.run calls).scanner = r.scanner.after (r.returned calls).length := by
  induction calls using List.reverseRecOn with
  | nil => rfl
  | append_singleton calls call ih =>
    rw [run_concat, scanner_perform, ih, Scanner.after_after, returned_concat, List.length_append]

/-- One more call ends a reader only as the `next?` that gives the end token. -/
theorem hasEnded_concat_iff (calls : List Call) (call : Call) :
    r.HasEnded (calls ++ [call]) ↔
      r.HasEnded calls ∨
        ∃ t, call = .next ∧ (r.run calls).answer call = some t ∧ t.kind = .endOfInput := by
  constructor
  · rintro ⟨front, back, t, hsplit, hanswer, hend⟩
    rcases List.eq_nil_or_concat' back with rfl | ⟨back, last, rfl⟩
    · obtain ⟨rfl, hcall⟩ := List.append_inj' hsplit rfl
      obtain rfl : call = .next := by simpa using hcall
      exact .inr ⟨t, rfl, hanswer, hend⟩
    · rw [← List.cons_append, ← List.append_assoc] at hsplit
      obtain ⟨rfl, -⟩ := List.append_inj' hsplit rfl
      exact .inl ⟨front, back, t, rfl, hanswer, hend⟩
  · rintro (⟨front, back, t, rfl, hanswer, hend⟩ | ⟨t, rfl, hanswer, hend⟩)
    · exact ⟨front, back ++ [call], t, by simp, hanswer, hend⟩
    · exact ⟨calls, [], t, rfl, hanswer, hend⟩

/-- **Only `next?` ends `next?`**: what was asked in the other way does not count. -/
theorem finished_run_iff (calls : List Call) :
    (r.run calls).finished = true ↔ r.finished = true ∨ r.HasEnded calls := by
  induction calls using List.reverseRecOn with
  | nil =>
    have hnone : ¬ r.HasEnded [] := by
      rintro ⟨front, back, t, hnil, -⟩
      simp at hnil
    simp [run, hnone]
  | append_singleton calls call ih =>
    rw [run_concat, finished_perform_iff, ih, hasEnded_concat_iff, or_assoc]

end histories

end Reader

/-! ### Histories of a text -/

section texts

variable {text : String} {file : Option String}

namespace Reader

/-- **A call gives nothing just if it is a `next?` and an earlier `next?` gave the end token.** -/
theorem answer_run_eq_none_iff (calls : List Call) (call : Call) :
    ((ofText text file).run calls).answer call = none ↔
      call = .next ∧ (ofText text file).HasEnded calls := by
  have hfresh : (ofText text file).finished = false := rfl
  rw [answer_eq]
  simp [finished_run_iff, hfresh]

/-- **The token that a reader gives stands in its text behind those it gave before.** -/
theorem answer_run_eq_some {calls : List Call} {call : Call} {t : Token}
    (h : ((ofText text file).run calls).answer call = some t) :
    t = tokenAt text file ((ofText text file).returned calls).length := by
  rw [answer_eq] at h
  split_ifs at h
  rw [← Option.some.inj h, scanner_run]
  exact Scanner.nextToken_after_ofText _

/-- **The tokens of a history are the first ones of the text**, in their order. -/
theorem returned_ofText (calls : List Call) :
    (ofText text file).returned calls =
      (List.range ((ofText text file).returned calls).length).map (tokenAt text file) := by
  induction calls using List.reverseRecOn with
  | nil => rfl
  | append_singleton calls call ih =>
    rw [returned_concat]
    rcases hanswer : ((ofText text file).run calls).answer call with _ | t
    · simpa using ih
    · have ht := answer_run_eq_some hanswer
      rw [Option.toList_some, List.length_append, List.length_singleton, List.range_succ,
        List.map_append, ← ih, ht]
      rfl

/-- **Once a reader gave the end token, `nextToken` gives it for ever.** -/
theorem answer_nextToken_of_endOfInput {calls : List Call} {t : Token}
    (ht : t ∈ (ofText text file).returned calls) (hend : t.kind = .endOfInput) :
    ((ofText text file).run calls).answer .nextToken = some t := by
  rw [returned_ofText] at ht
  obtain ⟨i, hi, rfl⟩ := List.mem_map.mp ht
  have hanswer : ((ofText text file).run calls).answer .nextToken = some _ := rfl
  have hnext := answer_run_eq_some hanswer
  rw [tokenAt_of_endOfInput (Nat.le_of_lt (List.mem_range.mp hi)) hend] at hnext
  rw [hanswer, hnext]

end Reader

end texts

/-! ### Sessions -/

/-- Something in use, and what was kept of it, the latest first. -/
structure Session (σ : Type) where
  current : σ
  kept : List σ

namespace Session

/-- What can happen in a session. -/
inductive Request where
  /-- The current reader is asked. -/
  | call (call : Reader.Call)
  /-- A copy of the current reader is kept. -/
  | save
  /-- The session goes on with one of the readers that are kept, counted from the latest. -/
  | restore (i : Nat)

variable {σ τ : Type}

/-- The session after a request, if calls do `step`. -/
def meet (step : σ → Reader.Call → σ) (s : Session σ) : Request → Session σ
  | .call c => { s with current := step s.current c }
  | .save => { s with kept := s.current :: s.kept }
  | .restore i =>
    match s.kept[i]? with
    | none => s
    | some r => ⟨r, s.kept.eraseIdx i⟩

/-- The session after requests, the first one first. -/
def run (step : σ → Reader.Call → σ) (s : Session σ) (requests : List Request) : Session σ :=
  requests.foldl (meet step) s

/-- The session with everything in it seen through a function. -/
def map (f : σ → τ) (s : Session σ) : Session τ :=
  ⟨f s.current, s.kept.map f⟩

/-- One request commutes with every view of what is kept. -/
theorem meet_map {f : σ → τ} {step : σ → Reader.Call → σ} {step' : τ → Reader.Call → τ}
    (hf : ∀ x call, step' (f x) call = f (step x call)) (s : Session σ) (request : Request) :
    (s.map f).meet step' request = (s.meet step request).map f := by
  cases request with
  | call c => simp [meet, map, hf]
  | save => simp [meet, map]
  | restore i =>
    rcases hi : s.kept[i]? with _ | r
    · simp [meet, map, hi]
    · simp [meet, map, hi, List.eraseIdx_map]

/-- **Keeping and taking up commute with every view of what is kept.** -/
theorem run_map {f : σ → τ} {step : σ → Reader.Call → σ} {step' : τ → Reader.Call → τ}
    (hf : ∀ x call, step' (f x) call = f (step x call)) (s : Session σ) (requests : List Request) :
    (s.map f).run step' requests = (s.run step requests).map f :=
  List.foldl_hom (map f) fun s request => meet_map hf s request

/-- Requests can be met in two parts. -/
theorem run_append (step : σ → Reader.Call → σ) (s : Session σ) (front back : List Request) :
    s.run step (front ++ back) = (s.run step front).run step back :=
  List.foldl_append

/-- Calls leave alone what is kept. -/
theorem kept_run_calls (step : σ → Reader.Call → σ) (s : Session σ) (calls : List Reader.Call) :
    (s.run step (calls.map .call)).kept = s.kept := by
  induction calls generalizing s with
  | nil => rfl
  | cons call calls ih => exact ih (s.meet step (.call call))

/-- **Whatever is asked between keeping and taking up, the session is as it was.** -/
theorem run_save_restore (step : σ → Reader.Call → σ) (s : Session σ) (calls : List Reader.Call) :
    s.run step (.save :: calls.map .call ++ [.restore 0]) = s := by
  have hkept : (s.run step (.save :: calls.map .call)).kept = s.current :: s.kept :=
    kept_run_calls step (s.meet step .save) calls
  rw [run_append]
  show (s.run step (.save :: calls.map .call)).meet step (.restore 0) = s
  simp [meet, hkept]

end Session

/-- **Every reader of a session is what its own history makes of a fresh one**, whatever was asked of the
others, and its history decides what it gives. The tokens of a history are the first ones of the text and then
its end token; a call gives nothing just if it is a `next?` and a `next?` of the history gave the end token,
and then it changes nothing. Once the end token was given, `nextToken` gives it for ever. -/
theorem session_histories (text : String) (file : Option String) (requests : List Session.Request) :
    let fresh := Reader.ofText text file
    let readers := Session.run Reader.perform ⟨fresh, []⟩ requests
    let histories := Session.run (fun calls call => calls ++ [call]) ⟨[], []⟩ requests
    readers = histories.map fresh.run ∧
      (∀ calls : List Reader.Call,
        readers.run Reader.perform (.save :: calls.map .call ++ [.restore 0]) = readers) ∧
      ∀ history,
        fresh.returned history =
          (List.range (fresh.returned history).length).map (tokenAt text file) ∧
        (∀ call t, (fresh.run history).answer call = some t →
          t = tokenAt text file (fresh.returned history).length) ∧
        (∀ call, (fresh.run history).answer call = none ↔ call = .next ∧ fresh.HasEnded history) ∧
        (∀ call, (fresh.run history).answer call = none →
          fresh.run (history ++ [call]) = fresh.run history) ∧
        ∀ t ∈ fresh.returned history, t.kind = .endOfInput →
          (fresh.run history).answer .nextToken = some t := by
  intro fresh readers histories
  refine ⟨?_, Session.run_save_restore _ _, ?_⟩
  · exact Session.run_map (fun calls call => (Reader.run_concat fresh calls call).symm) ⟨[], []⟩ requests
  · intro history
    refine ⟨Reader.returned_ofText history, fun call t => Reader.answer_run_eq_some,
      Reader.answer_run_eq_none_iff history, ?_, fun t => Reader.answer_nextToken_of_endOfInput⟩
    intro call hnone
    rw [Reader.run_concat, Reader.perform_of_answer_eq_none hnone]

/-- The end token of `nextToken` does not end `next?`, and that of `next?` does not end `nextToken`. -/
example : (((Reader.ofText "a" none).returned [.nextToken, .nextToken, .next, .next, .nextToken]).map
    fun t => (t.kind, t.text)) =
      [(.identifier, "a"), (.endOfInput, ""), (.endOfInput, ""), (.endOfInput, "")] := by
  decide

end Prattle
