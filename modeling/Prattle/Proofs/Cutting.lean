import Mathlib.Data.List.Basic
import Mathlib.Data.Nat.Bitwise
import Prattle.Proofs.Spelling

/-!
# Cutting a text into two

* **Between characters**: a text can be cut in front of and behind every ASCII byte
  (`exists_append_of_head`, `exists_append_of_last`).
* **Between tokens**: in front of each of its tokens a text falls into two that are scanned each on its
  own (`Scanner.exists_cut`).
* **At a byte that no token goes on with**, such as a blank or a `;`, what stands in front is scanned as
  if nothing followed (`Scanner.tokens_append_stop`).
-/

namespace Prattle

/-! ### Between characters -/

/-- A byte of ASCII starts a character. -/
theorem isUTF8FirstByte_of_ascii {b : UInt8} (h : b < 128) : b.IsUTF8FirstByte := by
  have hbit : b.toNat.testBit 7 = false := Nat.testBit_lt_two_pow (UInt8.lt_iff_toNat_lt.mp h)
  have hand : b.toNat &&& 2 ^ 7 = 0 := by rw [Nat.and_two_pow, hbit]; rfl
  exact .inl (UInt8.toNat_inj.mp hand)

section characters

variable {text : String} {l r : List UInt8}

/-- **A text can be cut in front of an ASCII byte.** -/
theorem exists_append_of_head (h : bytes text = l ++ r) (hr : ∀ b ∈ r.head?, b < 128) :
    ∃ a c, text = a ++ c ∧ bytes a = l ∧ bytes c = r := by
  have hsize : text.utf8ByteSize = l.length + r.length := by
    rw [← length_bytes, h, List.length_append]
  have hvalid : String.Pos.Raw.IsValid text ⟨l.length⟩ := by
    rw [String.Pos.Raw.isValid_iff_isUTF8FirstByte]
    rcases r with _ | ⟨b, r⟩
    · exact .inl (String.Pos.Raw.ext hsize.symm)
    · have hlt : l.length < text.utf8ByteSize := by
        rw [hsize, List.length_cons]
        omega
      refine .inr ⟨hlt, ?_⟩
      have hbyte : text.getUTF8Byte ⟨l.length⟩ hlt = b := by
        have hindex : (bytes text)[l.length]? = some b := by
          rw [h, List.getElem?_append_right (Nat.le_refl _), Nat.sub_self, List.getElem?_cons_zero]
        exact (List.getElem?_eq_some_iff.mp hindex).2
      rw [hbyte]
      exact isUTF8FirstByte_of_ascii (hr b rfl)
  obtain ⟨a, c, rfl, hpos⟩ := String.Pos.Raw.isValid_iff_exists_append.mp hvalid
  have hlength : (bytes a).length = l.length := by
    rw [length_bytes]
    exact (congrArg String.Pos.Raw.byteIdx hpos).symm
  rw [bytes_append] at h
  exact ⟨a, c, rfl, List.append_inj h hlength⟩

/-- A character whose first byte is ASCII has no other. -/
theorem utf8EncodeChar_of_head {c : Char} {b : UInt8} {bs : List UInt8}
    (h : String.utf8EncodeChar c = b :: bs) (hb : b < 128) : bs = [] := by
  by_cases hc : c.toNat < 128
  · rw [utf8EncodeChar_of_ascii hc] at h
    exact (List.cons.inj h).2.symm
  · have hhigh := le_of_mem_utf8EncodeChar (Nat.le_of_not_lt hc) b (h ▸ List.mem_cons_self)
    exact absurd (UInt8.lt_iff_toNat_lt.mp hb) (Nat.not_lt.mpr hhigh)

/-- **A text can be cut behind an ASCII byte.** -/
theorem exists_append_of_last {b : UInt8} (h : bytes text = l ++ b :: r) (hb : b < 128) :
    ∃ a c, text = a ++ c ∧ bytes a = l ++ [b] ∧ bytes c = r := by
  have hhead : ∀ d ∈ (b :: r).head?, d < 128 := by
    rintro d ⟨⟩
    exact hb
  obtain ⟨a, c, rfl, ha, hc⟩ := exists_append_of_head h hhead
  obtain ⟨d, ds, hlist⟩ : ∃ d ds, c.toList = d :: ds := by
    apply List.exists_cons_of_ne_nil
    intro hnil
    rw [← String.ofList_toList (s := c), hnil, bytes_ofList] at hc
    cases hc
  have hsplit : c = String.ofList [d] ++ String.ofList ds := by
    rw [← String.ofList_append, List.singleton_append, ← hlist, String.ofList_toList]
  have hbytes : bytes (String.ofList [d]) = String.utf8EncodeChar d := by
    rw [bytes_ofList, List.flatMap_singleton]
  rw [hsplit, bytes_append, hbytes] at hc
  rcases hd : String.utf8EncodeChar d with _ | ⟨b', bs⟩
  · have := String.length_utf8EncodeChar d
    rw [hd] at this
    exact absurd this.symm (Nat.pos_iff_ne_zero.mp d.utf8Size_pos)
  · rw [hd, List.cons_append] at hc
    obtain ⟨rfl, hrest⟩ := List.cons.inj hc
    obtain rfl := utf8EncodeChar_of_head hd hb
    refine ⟨a ++ String.ofList [d], String.ofList ds, ?_, ?_, hrest⟩
    · rw [String.append_assoc, ← hsplit]
    · rw [bytes_append, ha, hbytes, hd]

/-- **An ASCII text stands between two texts where its bytes stand.** -/
theorem exists_append_of_ascii {s : String} (hs : IsAscii s) (hne : s ≠ "")
    (h : bytes text = l ++ (bytes s ++ r)) :
    ∃ a c, text = a ++ s ++ c ∧ bytes a = l ∧ bytes c = r := by
  have hbytes : bytes s ≠ [] := fun hnil => hne (bytes_inj.mp (hnil.trans bytes_empty.symm))
  have hhead : ∀ b ∈ (bytes s ++ r).head?, b < 128 := by
    obtain ⟨d, ds, hcons⟩ := List.exists_cons_of_ne_nil hbytes
    rw [hcons]
    rintro b ⟨⟩
    exact hs.lt_of_mem (by rw [hcons]; exact List.mem_cons_self)
  obtain ⟨a, c, rfl, ha, hc⟩ := exists_append_of_head h hhead
  have hlast := List.dropLast_concat_getLast hbytes
  have hb : (bytes s).getLast hbytes < 128 := hs.lt_of_mem (List.getLast_mem hbytes)
  rw [← hlast, List.append_assoc, List.singleton_append] at hc
  obtain ⟨s', d, rfl, hs', hd⟩ := exists_append_of_last hc hb
  rw [hlast] at hs'
  obtain rfl := bytes_inj.mp hs'
  exact ⟨a, d, (String.append_assoc ..).symm, ha, hd⟩

end characters

/-! ### Between tokens -/

namespace Lexeme

variable {s : String} {b x : UInt8} {next next' before after : List UInt8}

/-- Whether a lexeme ends depends on the next byte alone. -/
theorem Stops.of_head (h : Stops s next) (hhead : ∀ b ∈ next'.head?, b ∈ next.head?) :
    Stops s next' where
  word := fun hword b hb => h.word hword b (hhead b hb)
  number := fun hnumber b hb => h.number hnumber b (hhead b hb)
  equals := fun hs hequals => h.equals hs (hhead _ hequals)

/-- No lexeme goes on with a byte that is neither of a word nor an `=`. -/
theorem stops_of_byte (hword : isWordByte x = false) (hx : x ≠ '='.toUInt8) :
    Stops s (x :: after) where
  word := by
    rintro - b ⟨⟩
    exact hword
  number := by
    rintro - b ⟨⟩
    exact (Bool.or_eq_false_iff.mp hword).2
  equals := by
    rintro - ⟨⟩
    exact hx rfl

/-- A lexeme stays as long as it is, whatever follows that does not go on with it. -/
theorem tail_append_of_stops (hb : isBlank b = false) (rest : List UInt8)
    (hstop : Stops (text (b :: tail b rest)) next) : tail b (tail b rest ++ next) = tail b rest := by
  obtain ⟨heq, -⟩ := @eq_of_stops _ _ b (tail b rest ++ next) next _ (is_tail hb rest) hstop rfl
  exact (List.cons.inj heq).2.symm

/-- **No lexeme reaches into a byte that no lexeme goes on with.** -/
theorem tail_append_stop (hb : isBlank b = false) (hword : isWordByte x = false)
    (hx : x ≠ '='.toUInt8) : tail b (before ++ x :: after) = tail b before := by
  have hstop : Stops (text (b :: tail b before)) (Lexeme.after b before ++ x :: after) := by
    rcases hafter : Lexeme.after b before with _ | ⟨c, cs⟩
    · exact stops_of_byte hword hx
    · refine (stops_tail hb before).of_head ?_
      rw [hafter]
      exact fun d hd => hd
  have heq := tail_append_of_stops hb before hstop
  rwa [← List.append_assoc, tail_append_after] at heq

end Lexeme

namespace Scanner

variable {bs before after : List UInt8} {o : Nat} {file : String}

/-- Blanks in front change nothing. -/
theorem tokens_of_blanks_append (h : ∀ b ∈ before, isBlank b = true) :
    (Scanner.mk (before ++ after) o file).tokens =
      (Scanner.mk after (o + before.length) file).tokens := by
  rcases blanks_cases after with hblank | ⟨run, b, rest, rfl, hrun, hb⟩
  · rw [tokens_of_blanks hblank, tokens_of_blanks]
    exact List.forall_mem_append.mpr ⟨h, hblank⟩
  · rw [← List.append_assoc, tokens_of_lexeme (List.forall_mem_append.mpr ⟨h, hrun⟩) hb,
      tokens_of_lexeme hrun hb, List.length_append, ← Nat.add_assoc]

/-- **In front of a byte that no lexeme goes on with, a text is scanned as if nothing followed.** -/
theorem tokens_append_stop {x : UInt8} (hword : isWordByte x = false) (hx : x ≠ '='.toUInt8) :
    (Scanner.mk (before ++ x :: after) o file).tokens =
      (Scanner.mk before o file).tokens ++
        (Scanner.mk (x :: after) (o + before.length) file).tokens := by
  generalize hn : before.length = n
  induction n using Nat.strongRecOn generalizing before o with
  | ind n ih =>
    subst hn
    rcases blanks_cases before with hblank | ⟨run, b, rest, rfl, hrun, hb⟩
    · rw [tokens_of_blanks_append hblank, tokens_of_blanks hblank, List.nil_append]
    · have hlength := congrArg List.length (Lexeme.tail_append_after b rest)
      have htail := @Lexeme.tail_append_stop b x rest after hb hword hx
      have hafter : Lexeme.after b (rest ++ x :: after) = Lexeme.after b rest ++ x :: after := by
        rw [Lexeme.after, htail, Lexeme.after,
          List.drop_append_of_le_length (Lexeme.tail_isPrefix b rest).length_le]
      rw [List.length_append] at hlength
      have hoffset : o + run.length + (b :: Lexeme.tail b rest).length +
          (Lexeme.after b rest).length = o + (run ++ b :: rest).length := by
        simp only [List.length_append, List.length_cons]
        omega
      rw [List.append_assoc, List.cons_append, tokens_of_lexeme hrun hb, htail, hafter,
        ih _ (by simp only [List.length_append, List.length_cons]; omega) rfl, hoffset,
        tokens_of_lexeme hrun hb]
      rfl

/-- **In front of each of its tokens a text falls into two**, each of which is scanned on its own. -/
theorem exists_cut {pre post : List Token} {t : Token}
    (h : (Scanner.mk bs o file).tokens = pre ++ t :: post) :
    ∃ before after, bs = before ++ after ∧ (Scanner.mk before o file).tokens = pre ∧
      (Scanner.mk after (o + before.length) file).tokens = t :: post ∧
      t.span.start = ⟨(o + before.length).toUInt32, file⟩ := by
  induction pre generalizing bs o with
  | nil =>
    rcases blanks_cases bs with hblank | ⟨run, b, rest, rfl, hrun, hb⟩
    · rw [tokens_of_blanks hblank] at h
      cases h
    · refine ⟨run, b :: rest, rfl, tokens_of_blanks hrun _ _, ?_, ?_⟩
      · rw [← tokens_of_blanks_append hrun]
        exact h
      · rw [tokens_of_lexeme hrun hb] at h
        rw [← (List.cons.inj h).1]
        rfl
  | cons u pre ih =>
    rcases blanks_cases bs with hblank | ⟨run, b, rest, rfl, hrun, hb⟩
    · rw [tokens_of_blanks hblank] at h
      cases h
    · rw [tokens_of_lexeme hrun hb] at h
      obtain ⟨hfirst, hrest⟩ := List.cons.inj h
      obtain ⟨before, after, hsplit, hbefore, hafter, hstart⟩ := ih hrest
      have hstop : Lexeme.Stops (Lexeme.text (b :: Lexeme.tail b rest)) before := by
        refine (Lexeme.stops_tail hb rest).of_head ?_
        rw [hsplit]
        rcases before with _ | ⟨c, cs⟩
        · exact fun d hd => absurd hd (Option.not_mem_none d)
        · exact fun d hd => hd
      have htail := Lexeme.tail_append_of_stops hb rest hstop
      have hcut : Lexeme.after b (Lexeme.tail b rest ++ before) = before := by
        rw [Lexeme.after, htail, List.drop_left]
      have hoffset : o + run.length + (b :: Lexeme.tail b rest).length + before.length =
          o + (run ++ b :: (Lexeme.tail b rest ++ before)).length := by
        simp only [List.length_append, List.length_cons]
        omega
      rw [hoffset] at hafter hstart
      refine ⟨run ++ b :: (Lexeme.tail b rest ++ before), after, ?_, ?_, hafter, hstart⟩
      · rw [List.append_assoc, List.cons_append, List.append_assoc, ← hsplit,
          Lexeme.tail_append_after]
      · rw [tokens_of_lexeme hrun hb, htail, hcut, hbefore, ← hfirst]
        rfl

/-- A text that does not end with an illegal token ends with an ASCII byte. -/
theorem lt_of_getLast? (h : ∀ t ∈ (Scanner.mk bs o file).tokens.getLast?, t.kind ≠ .illegal) :
    ∀ b ∈ bs.getLast?, b < 128 := by
  generalize hn : bs.length = n
  induction n using Nat.strongRecOn generalizing bs o with
  | ind n ih =>
    subst hn
    rcases blanks_cases bs with hblank | ⟨run, b, rest, rfl, hrun, hb⟩
    · intro b hb
      have hblank := isBlank_iff.mp (hblank b (List.mem_of_getLast? hb))
      rw [UInt8.lt_iff_toNat_lt]
      show b.toNat < 128
      omega
    · rw [tokens_of_lexeme hrun hb, ← List.singleton_append] at h
      rcases hafter : Lexeme.after b rest with _ | ⟨c, cs⟩
      · -- the lexeme is the last one
        have htail : Lexeme.tail b rest = rest := by
          have hsplit := Lexeme.tail_append_after b rest
          rwa [hafter, List.append_nil] at hsplit
        rw [hafter, tokens_of_blanks fun d hd => absurd hd List.not_mem_nil, List.append_nil] at h
        have hkind := h _ rfl
        have hlexeme := Lexeme.is_tail hb rest
        intro d hd
        rw [List.getLast?_append_of_ne_nil _ (List.cons_ne_nil _ _)] at hd
        rcases hlexeme with ⟨hspells, hbytes⟩ | ⟨-, -, -, hillegal, -⟩
        · apply hspells.isAscii.lt_of_mem
          rw [hbytes, htail]
          exact List.mem_of_getLast? hd
        · exact absurd hillegal hkind
      · have hlast : (run ++ b :: rest).getLast? = (Lexeme.after b rest).getLast? := by
          have hsplit := Lexeme.tail_append_after b rest
          rw [← hsplit, ← List.cons_append, ← List.append_assoc, List.getLast?_append_of_ne_nil,
            hsplit]
          rw [hafter]
          exact List.cons_ne_nil _ _
        rw [hlast]
        refine ih _ ?_ (o := o + run.length + (b :: Lexeme.tail b rest).length) ?_ rfl
        · have := Lexeme.length_after_le b rest
          simp only [List.length_append, List.length_cons]
          omega
        · intro t ht
          apply h
          rw [List.getLast?_append_of_ne_nil]
          · exact ht
          · intro hnil
            rw [hnil] at ht
            cases ht

end Scanner

/-! ### By the faces of the lexemes -/

section lexemes

variable {before after rest : List UInt8}

/-- **In front of a byte that no lexeme goes on with, a text falls into the lexemes of its two parts.** -/
theorem map_face_lexemes_append_stop {x : UInt8} (hword : isWordByte x = false)
    (hx : x ≠ '='.toUInt8) :
    (lexemes (before ++ x :: after)).map Lexeme.face =
      (lexemes before).map Lexeme.face ++ (lexemes (x :: after)).map Lexeme.face := by
  have htokens := congrArg (List.map Token.face)
    (@Scanner.tokens_append_stop before after 0 "" x hword hx)
  rwa [List.map_append, Scanner.map_face_tokens, Scanner.map_face_tokens,
    Scanner.map_face_tokens] at htokens

/-- A spelling in front of a blank is a lexeme. -/
theorem Spells.lexemes_blank {kind : TokenKind} {s : String} (h : Spells kind s) :
    (Prattle.lexemes (bytes s ++ ' '.toUInt8 :: rest)).map Lexeme.face =
      (kind, s) :: (Prattle.lexemes rest).map Lexeme.face := by
  rw [h.lexemes (Lexeme.stops_of_byte (by decide) (by decide)), Prattle.lexemes_blank (by decide)]

/-- A `;` is a lexeme whatever follows. -/
theorem lexemes_semicolon :
    (lexemes (bytes ";" ++ rest)).map Lexeme.face =
      (.semicolon, ";") :: (lexemes rest).map Lexeme.face := by
  have hsemicolon : lexemes (';'.toUInt8 :: rest) = [';'.toUInt8] :: lexemes rest :=
    lexemes_single (by decide) rfl
  show (lexemes (';'.toUInt8 :: rest)).map Lexeme.face = _
  rw [hsemicolon]
  rfl

end lexemes

end Prattle
