import Prattle.Proofs.Cutting
import Prattle.Proofs.Simulation

/-!
# Every semicolon starts afresh

What stands behind a `;` is read as if it stood at the start of a text, whatever stands in front of
that `;`, and the other way round.

* **The scanner starts afresh** (`Scanner.exists_tokens_semicolon`): a `;` is a token of its own, no
  lexeme in front of it reaches into it, and none behind it knows of it.
* **No statement steps over a `;`** (`statements_of_extends`): two cursors whose tokens agree up to a
  `;` are read alike until both have passed it, and then each goes on with what it has left.
* **Offsets stay in the text** (`offset_le_of_parse`), so that none of them wraps when it is shifted.
* **Parsing resynchronises at every `;`** (`parse_append_semicolon`).
-/

namespace Prattle

/-! ### Scanning up to a semicolon -/

/-- **A scanner starts afresh behind a `;`**: the tokens up to it are the same whatever follows, and
those behind it are the tokens of what follows. -/
theorem Scanner.exists_tokens_semicolon (before : List UInt8) (offset : Nat) (file : String) :
    ∃ ts stop, stop.kind = .semicolon ∧ ∀ after : List UInt8,
      (Scanner.mk (before ++ ';'.toUInt8 :: after) offset file).tokens =
        ts ++ stop :: (Scanner.mk after (offset + (before.length + 1)) file).tokens := by
  refine ⟨(Scanner.mk before offset file).tokens, ⟨.semicolon, ";",
    .ofRange file (offset + before.length) (offset + before.length + 1)⟩, rfl, fun after => ?_⟩
  rw [tokens_append_stop (by decide) (by decide), ← Nat.add_assoc]
  exact congrArg _ (@tokens_of_lexeme [] after ';'.toUInt8 (fun c hc => absurd hc List.not_mem_nil)
    (by decide) _ _)

/-! ### Reading up to a semicolon -/

/-- The tokens of the first cursor end with a `;`, and the second cursor has `more` behind them. -/
def Cursor.Extends (more : List Token) (c d : Cursor) : Prop :=
  ∃ ts stop, stop.kind = .semicolon ∧ c.tokens = ts ++ [stop] ∧ d.tokens = ts ++ stop :: more

namespace Grammar

variable {more : List Token}

/-- While the shared tokens last, neither cursor is at its end. -/
theorem atEnd_of_extends {c d : Cursor} (h : c.Extends more d) : c.atEnd = false ∧ d.atEnd = false := by
  obtain ⟨ts, stop, -, hc, hd⟩ := h
  rw [Cursor.atEnd, Cursor.atEnd, hc, hd, List.isEmpty_eq_false_iff, List.isEmpty_eq_false_iff]
  exact ⟨List.append_ne_nil_of_right_ne_nil _ (List.cons_ne_nil _ _),
    List.append_ne_nil_of_right_ne_nil _ (List.cons_ne_nil _ _)⟩

/-- A step over a token other than the closing `;` keeps it ahead, and the step over it leaves nothing
and `more`. -/
theorem advance_of_extends {c d : Cursor} (h : c.Extends more d) :
    c.advance.Extends more d.advance ∨
    (c.current.kind = .semicolon ∧ c.advance.tokens = [] ∧ d.advance.tokens = more) := by
  obtain ⟨ts, stop, hkind, hc, hd⟩ := h
  rw [Cursor.tokens_advance, Cursor.tokens_advance, hc, hd]
  rcases ts with _ | ⟨t, ts⟩
  · refine .inr ⟨?_, rfl, rfl⟩
    rw [Cursor.current, hc]
    exact hkind
  · refine .inl ⟨ts, stop, hkind, ?_, ?_⟩
    · rw [Cursor.tokens_advance, hc]
      rfl
    · rw [Cursor.tokens_advance, hd]
      rfl

/-- A text and a longer one are read alike up to a semicolon that they share. -/
theorem extends_simulation :
    Cursor.Simulation (· ≠ .semicolon) id id (fun _ => False) (Cursor.Extends more) where
  current := by
    rintro c d ⟨ts, stop, -, hc, hd⟩
    rw [Cursor.current, Cursor.current, hc, hd]
    rcases ts with _ | ⟨t, ts⟩
    · rfl
    · rfl
  atEnd := by
    intro c d h
    obtain ⟨hc, hd⟩ := atEnd_of_extends h
    rw [hc, hd]
  advance := by
    intro c d h hstep
    rcases advance_of_extends h with hnext | ⟨hkind, -, -⟩
    · exact .inr hnext
    · exact absurd hkind hstep
  out := id

/-- **What stands behind a `;` is read from behind that `;`**, and what stands in front of it is read as
if nothing followed. -/
theorem statements_of_extends {c d : Cursor} (h : c.Extends more d) :
    ∃ d' : Cursor, d'.tokens = more ∧ d'.eof = d.eof ∧
      Reading.values (standard.statements d) =
        Reading.values (standard.statements c) ++ Reading.values (standard.statements d') ∧
      Reading.errors (standard.statements d) =
        Reading.errors (standard.statements c) ++ Reading.errors (standard.statements d') := by
  induction c using standard.statements_induction generalizing d with
  | atEnd c hend =>
    rw [(atEnd_of_extends h).1] at hend
    cases hend
  | statement c hend ih =>
    have hend' := (atEnd_of_extends h).2
    obtain ⟨hvalue, herror, hcursor⟩ := (alike_statement extends_simulation h).maps
    simp only [Stmt.relocate_id, SyntaxError.relocate_id, List.map_id'] at hvalue herror
    obtain ⟨k, hk⟩ := standard.exists_advance_eq_forward d
    have heof : (standard.statement d).cursor.advance.eof = d.eof := by rw [hk, Cursor.eof_forward]
    rw [statements_of_not_atEnd hend, statements_of_not_atEnd hend', Reading.values_cons,
      Reading.values_cons, Reading.errors_cons, Reading.errors_cons, hvalue, herror]
    rcases advance_of_extends hcursor with hnext | ⟨-, hnil, hmore⟩
    · obtain ⟨d', htokens, heof', hvalues, herrors⟩ := ih hnext
      refine ⟨d', htokens, heof'.trans heof, ?_, ?_⟩
      · rw [hvalues, List.append_assoc]
      · rw [herrors, List.append_assoc]
    · refine ⟨(standard.statement d).cursor.advance, hmore, heof, ?_, ?_⟩
      · rw [statements_of_atEnd (List.isEmpty_iff.mpr hnil), Reading.values_nil, List.append_nil]
      · rw [statements_of_atEnd (List.isEmpty_iff.mpr hnil), Reading.errors_nil, List.append_nil]

end Grammar

/-! ### Parsing -/

/-- **No position behind the end of a text is mentioned**: the positions of its statements and errors
are positions of its tokens. -/
theorem offset_le_of_parse (text : String) (file : Option String) :
    (∀ s ∈ (parse text file).1.statements, ∀ p ∈ s.positions,
      p.offset.toNat ≤ text.utf8ByteSize) ∧
    (∀ e ∈ (parse text file).2, e.position.offset.toNat ≤ text.utf8ByteSize) := by
  have hplace : ∀ (label : String), ∀ k ≤ (bytes text).length,
      Position.within text.utf8ByteSize ⟨(0 + k).toUInt32, label⟩ = ⟨(0 + k).toUInt32, label⟩ := by
    intro label k hk
    rw [length_bytes] at hk
    rw [Position.within_eq_self_iff, Nat.zero_add]
    -- the offset is `k` up to wrapping, which only makes it smaller
    exact Nat.le_trans (Nat.mod_le _ _) hk
  have hfixed : Grammar.Relocated (Position.within text.utf8ByteSize) (Cursor.ofText text file)
      (Cursor.ofText text file) :=
    ⟨Scanner.map_relocate_tokens (hplace _), Scanner.relocate_endToken (hplace _ _ (Nat.le_refl _))⟩
  obtain ⟨hpositions, hposition⟩ := Grammar.fixed_of_relocated hfixed
  rw [parse_eq]
  exact ⟨fun s hs p hp => Position.within_eq_self_iff.mp (hpositions s hs p hp),
    fun e he => Position.within_eq_self_iff.mp (hposition e he)⟩

section semicolon

variable (a b : String) (file : Option String)

/-- The scanner behind the `;` of `a ++ ";" ++ b`. -/
def Scanner.behindSemicolon : Scanner :=
  ⟨bytes b, a.utf8ByteSize + 1, file.getD defaultLabel⟩

/-- The bytes of two texts with a semicolon between them. -/
theorem bytes_append_semicolon :
    bytes (a ++ ";" ++ b) = bytes a ++ ';'.toUInt8 :: bytes b := by
  have hsemicolon : bytes ";" = [';'.toUInt8] := rfl
  rw [bytes_append, bytes_append, hsemicolon, List.append_assoc, List.singleton_append]

/-- The tokens of `a ++ ";"` are those of the whole text up to the `;`. -/
theorem extends_ofText :
    (Cursor.ofText (a ++ ";") file).Extends (Scanner.behindSemicolon a b file).tokens
      (Cursor.ofText (a ++ ";" ++ b) file) := by
  obtain ⟨ts, stop, hkind, htokens⟩ :=
    Scanner.exists_tokens_semicolon (bytes a) 0 (file.getD Scanner.defaultLabel)
  rw [Nat.zero_add, length_bytes] at htokens
  refine ⟨ts, stop, hkind, ?_, ?_⟩
  · have hnil := htokens []
    rw [Scanner.tokens_of_blanks fun b hb => absurd hb List.not_mem_nil] at hnil
    have hbytes := bytes_append_semicolon a ""
    rw [String.append_empty, bytes_empty] at hbytes
    rw [Cursor.ofText, Cursor.ofScanner, Scanner.ofText, hbytes]
    exact hnil
  · rw [Cursor.ofText, Cursor.ofScanner, Scanner.ofText, bytes_append_semicolon]
    exact htokens (bytes b)

/-- The end of both texts is the end of the second one, scanned from behind the semicolon. -/
theorem eof_ofText_append_semicolon :
    (Cursor.ofText (a ++ ";" ++ b) file).eof = (Scanner.behindSemicolon a b file).endToken := by
  have hlength : 0 + (bytes (a ++ ";" ++ b)).length = a.utf8ByteSize + 1 + (bytes b).length := by
    rw [bytes_append_semicolon, List.length_append, List.length_cons, length_bytes]
    omega
  rw [Cursor.ofText, Cursor.ofScanner, Scanner.ofText, Scanner.endToken, hlength]
  rfl

/-- What is left behind the `;` is `b`, with every offset counted from there. -/
theorem relocated_behindSemicolon {d : Cursor}
    (htokens : d.tokens = (Scanner.behindSemicolon a b file).tokens)
    (heof : d.eof = (Scanner.behindSemicolon a b file).endToken) :
    Grammar.Relocated (Position.shift (a.utf8ByteSize + 1)) (Cursor.ofText b file) d := by
  have hplace : ∀ k : Nat, Position.shift (a.utf8ByteSize + 1)
      ⟨(0 + k).toUInt32, file.getD Scanner.defaultLabel⟩ =
        ⟨(a.utf8ByteSize + 1 + k).toUInt32, file.getD Scanner.defaultLabel⟩ := by
    intro k
    rw [Position.shift_mk, Nat.zero_add]
  constructor
  · rw [htokens]
    exact Scanner.map_relocate_tokens fun k _ => hplace k
  · rw [heof]
    exact Scanner.relocate_endToken (hplace _)

/-- Offsets that do not reach `2 ^ 32` are shifted without wrapping. -/
theorem Position.toNat_offset_shift {n : Nat} {p : Position} (h : p.offset.toNat + n < 2 ^ 32) :
    (p.shift n).offset.toNat = p.offset.toNat + n := by
  have hn : n.toUInt32.toNat = n :=
    UInt32.toNat_ofNat_of_lt' (Nat.lt_of_le_of_lt (Nat.le_add_left n _) h)
  rw [shift, UInt32.toNat_add, hn, Nat.mod_eq_of_lt h]

/-- **Parsing resynchronises at every `;`**: what stands behind one gives the statements and the errors
that it gives on its own, with every offset counted from the `;` on, and what stands in front of it gives
those that it gives without what follows. -/
theorem parse_append_semicolon (h : a.utf8ByteSize + 1 + b.utf8ByteSize < 2 ^ 32) :
    (parse (a ++ ";" ++ b) file).1.statements =
        (parse (a ++ ";") file).1.statements ++
          (parse b file).1.statements.map (·.shift (a.utf8ByteSize + 1)) ∧
    (parse (a ++ ";" ++ b) file).2 =
        (parse (a ++ ";") file).2 ++ (parse b file).2.map (·.shift (a.utf8ByteSize + 1)) ∧
    (∀ s ∈ (parse b file).1.statements, ∀ p ∈ s.positions,
      (p.shift (a.utf8ByteSize + 1)).offset.toNat = p.offset.toNat + (a.utf8ByteSize + 1)) ∧
    (∀ e ∈ (parse b file).2, (e.position.shift (a.utf8ByteSize + 1)).offset.toNat =
      e.position.offset.toNat + (a.utf8ByteSize + 1)) := by
  obtain ⟨d, htokens, heof, hvalues, herrors⟩ :=
    Grammar.statements_of_extends (extends_ofText a b file)
  rw [eof_ofText_append_semicolon] at heof
  obtain ⟨hvalues', herrors'⟩ :=
    Grammar.statements_of_relocated (relocated_behindSemicolon a b file htokens heof)
  obtain ⟨hpositions, hposition⟩ := offset_le_of_parse b file
  refine ⟨?_, ?_, ?_, ?_⟩
  · rw [parse_eq, parse_eq, parse_eq, hvalues, ← hvalues']
    rfl
  · rw [parse_eq, parse_eq, parse_eq, herrors, ← herrors']
    rfl
  · intro s hs p hp
    have hle := hpositions s hs p hp
    apply Position.toNat_offset_shift
    omega
  · intro e he
    have hle := hposition e he
    apply Position.toNat_offset_shift
    omega

end semicolon

/-- An open group in front of the `;`, and behind it an operator without its left operand, a statement
and a character that is no token. -/
theorem parse_append_semicolon_broken :
    "(x +".utf8ByteSize + 1 + " * y; z é".utf8ByteSize < 2 ^ 32 ∧
    (parse ("(x +" ++ ";" ++ " * y; z é") none).1.statements =
      (parse ("(x +" ++ ";") none).1.statements ++
        (parse " * y; z é" none).1.statements.map (·.shift 5) ∧
    (parse ("(x +" ++ ";" ++ " * y; z é") none).2 =
      (parse ("(x +" ++ ";") none).2 ++ (parse " * y; z é" none).2.map (·.shift 5) := by
  have hlt : "(x +".utf8ByteSize + 1 + " * y; z é".utf8ByteSize < 2 ^ 32 := by decide
  obtain ⟨hstatements, herrors, -, -⟩ := parse_append_semicolon "(x +" " * y; z é" none hlt
  exact ⟨hlt, hstatements, herrors⟩

/-- No error in front of the `;` hides those behind it. -/
example : (parse "(x +; * y; z é" none).2.map (·.position.offset) = [4, 6, 13] := by decide

end Prattle
