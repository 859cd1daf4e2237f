import Prattle.Proofs.Cutting
import Prattle.Proofs.Readings
import Prattle.Proofs.Spelling

/-!
# Tokenizations

`IsTokenization text label p ts` says without a scanner that `ts` is what the bytes of a text from the
offset `p` on fall into: lexemes in their order, each where it stands and as long as it can be, with
blanks and nothing else between them, and at last the end token.

* **One lexeme comes off at a time** (`isTokenization_lexeme_iff`): a tokenization of bytes that start
  with blanks and a lexeme is that lexeme in front of a tokenization of what follows it.
* **A text has exactly one tokenization, and `tokenize` gives it** (`isTokenization_iff_eq_tokenize`).
  The texts of its tokens are pieces of the text, cut between characters.
-/

namespace Prattle

namespace Token

/-- The offset of the first byte of the token. -/
def first (t : Token) : Nat :=
  t.span.start.offset.toNat

/-- The offset just after the last byte of the token. -/
def past (t : Token) : Nat :=
  t.span.stop.offset.toNat

end Token

/-- The token that marks the end of a text. -/
def Token.endOf (text label : String) : Token :=
  ⟨.endOfInput, "", .ofRange label text.utf8ByteSize text.utf8ByteSize⟩

/-- The tokens are those of the text from the byte at offset `p` on. -/
structure IsTokenization (text label : String) (p : Nat) (ts : List Token) : Prop where
  /-- The end token comes last and is the only one of its kind. -/
  ends : ∃ init, ts = init ++ [.endOf text label] ∧ ∀ t ∈ init, t.kind ≠ .endOfInput
  /-- Every token is labelled with the file. -/
  labelled : ∀ t ∈ ts, t.span.start.file = label ∧ t.span.stop.file = label
  /-- No token starts before `p`. -/
  behind : ∀ t ∈ ts, p ≤ t.first
  /-- Only the end token is empty. -/
  nonempty : ∀ t ∈ ts, t.kind ≠ .endOfInput → t.first < t.past
  /-- The tokens stand one behind the other. -/
  ordered : ts.Pairwise fun t u => t.past ≤ u.first
  /-- The bytes outside of the tokens are spaces, tabs, line feeds and carriage returns, and no others
  are. -/
  blanks : ∀ i b, p ≤ i → (bytes text)[i]? = some b →
    (b ∈ blankBytes ↔ ∀ t ∈ ts, ¬ (t.first ≤ i ∧ i < t.past))
  /-- The bytes of a token are a lexeme of its kind and text. -/
  lexemes : ∀ t ∈ ts, t.kind ≠ .endOfInput →
    Lexeme.Is t.kind t.text ((bytes text).extract t.first t.past)
  /-- Nothing behind a token goes on with it. -/
  stops : ∀ t ∈ ts, Lexeme.Stops t.text ((bytes text).drop t.past)

/-! ### Offsets -/

/-- Offsets below `2 ^ 32` are kept as they are. -/
theorem Span.toNat_offset_ofRange {label : String} {start stop : Nat} (hle : start ≤ stop)
    (hstop : stop < 2 ^ 32) :
    (ofRange label start stop).start.offset.toNat = start ∧
      (ofRange label start stop).stop.offset.toNat = stop :=
  ⟨UInt32.toNat_ofNat_of_lt' (Nat.lt_of_le_of_lt hle hstop), UInt32.toNat_ofNat_of_lt' hstop⟩

/-- A span is determined by its offsets and its label. -/
theorem Span.eq_ofRange {label : String} {s : Span} {start stop : Nat}
    (hfile : s.start.file = label ∧ s.stop.file = label) (hstart : s.start.offset.toNat = start)
    (hstop : s.stop.offset.toNat = stop) : s = ofRange label start stop := by
  obtain ⟨⟨o, f⟩, ⟨o', f'⟩⟩ := s
  have hfile : f = label ∧ f' = label := hfile
  have hstart : o.toNat = start := hstart
  have hstop : o'.toNat = stop := hstop
  have hoffset : ∀ k : UInt32, k.toNat.toUInt32 = k := fun k => UInt32.ofNat_toNat
  rw [ofRange, ← hstart, ← hstop, hoffset, hoffset, hfile.1, hfile.2]

namespace Lexeme

/-- No blank is part of a lexeme. -/
theorem isBlank_eq_false_of_mem {b c : UInt8} {rest : List UInt8} (hb : isBlank b = false)
    (hc : c ∈ b :: tail b rest) : isBlank c = false := by
  rcases List.mem_cons.mp hc with rfl | hc
  · exact hb
  · unfold tail at hc
    split at hc
    · exact isBlank_eq_false_of_isWordByte (List.mem_takeWhile_imp hc)
    · split at hc
      · exact isBlank_eq_false_of_isWordByte (isWordByte_iff.mpr (.inr (List.mem_takeWhile_imp hc)))
      · split at hc
        · rename_i hequals
          rw [Bool.and_eq_true, beq_iff_eq] at hequals
          obtain ⟨more, rfl⟩ := List.head?_eq_some_iff.mp hequals.2
          rw [List.mem_singleton.mp hc]
          rfl
        · exact absurd hc List.not_mem_nil

end Lexeme

section tokenization

variable {text label : String} {p : Nat} {ts : List Token}

/-- The end token starts and stops at the length of the text. -/
theorem Token.offsets_endOf (label : String) (h : text.utf8ByteSize < 2 ^ 32) :
    (endOf text label).first = text.utf8ByteSize ∧ (endOf text label).past = text.utf8ByteSize :=
  Span.toNat_offset_ofRange (Nat.le_refl _) h

namespace IsTokenization

/-- No token ends behind the text. -/
theorem past_le (h : IsTokenization text label p ts) (hsize : text.utf8ByteSize < 2 ^ 32) {t : Token}
    (ht : t ∈ ts) : t.past ≤ text.utf8ByteSize := by
  obtain ⟨hfirst, hpast⟩ := Token.offsets_endOf label hsize
  obtain ⟨init, rfl, -⟩ := h.ends
  rcases List.mem_append.mp ht with ht | ht
  · have hle := (List.pairwise_append.mp h.ordered).2.2 t ht _ (List.mem_singleton_self _)
    rwa [hfirst] at hle
  · rw [List.mem_singleton.mp ht, hpast]

/-- **The tokens start one behind the other.** -/
theorem sorted (h : IsTokenization text label p ts) : ts.Pairwise fun t u => t.first < u.first := by
  obtain ⟨init, rfl, hno⟩ := h.ends
  obtain ⟨hinit, -, hlast⟩ := List.pairwise_append.mp h.ordered
  have hlt : ∀ t ∈ init, t.first < t.past := fun t ht =>
    h.nonempty t (List.mem_append_left _ ht) (hno t ht)
  refine List.pairwise_append.mpr ⟨?_, List.pairwise_singleton _ _, ?_⟩
  · exact hinit.imp_of_mem fun ht _ hle => Nat.lt_of_lt_of_le (hlt _ ht) hle
  · exact fun t ht u hu => Nat.lt_of_lt_of_le (hlt t ht) (hlast t ht u hu)

/-- A token other than the end token starts with a byte that is no blank. -/
theorem exists_first (h : IsTokenization text label p ts) (hsize : text.utf8ByteSize < 2 ^ 32)
    {t : Token} (ht : t ∈ ts) (hkind : t.kind ≠ .endOfInput) :
    ∃ b, (bytes text)[t.first]? = some b ∧ isBlank b = false := by
  have hlt := h.nonempty t ht hkind
  have hle := h.past_le hsize ht
  have hbyte : t.first < (bytes text).length := by
    rw [length_bytes]
    omega
  refine ⟨_, List.getElem?_eq_getElem hbyte, ?_⟩
  rw [isBlank_eq_false_iff]
  intro hblank
  exact (h.blanks t.first _ (h.behind t ht) (List.getElem?_eq_getElem hbyte)).mp hblank t ht
    ⟨Nat.le_refl _, hlt⟩

/-- The tokens behind the first one are a tokenization of what follows it. -/
theorem of_cons {t : Token} {us : List Token} (h : IsTokenization text label p (t :: us))
    (hkind : t.kind ≠ .endOfInput) : IsTokenization text label t.past us := by
  have hmem : ∀ u ∈ us, u ∈ t :: us := fun u hu => List.mem_cons_of_mem _ hu
  have hbehind := h.behind t List.mem_cons_self
  have hnonempty := h.nonempty t List.mem_cons_self hkind
  refine ⟨?_, fun u hu => h.labelled u (hmem u hu), fun u hu => List.rel_of_pairwise_cons h.ordered hu,
    fun u hu => h.nonempty u (hmem u hu), h.ordered.of_cons, ?_,
    fun u hu => h.lexemes u (hmem u hu), fun u hu => h.stops u (hmem u hu)⟩
  · obtain ⟨init, hinit, hno⟩ := h.ends
    rcases init with _ | ⟨u, init⟩
    · exact absurd (congrArg Token.kind (List.cons.inj hinit).1) hkind
    · exact ⟨init, (List.cons.inj hinit).2, fun v hv => hno v (List.mem_cons_of_mem _ hv)⟩
  · intro i b hi hb
    rw [h.blanks i b (by omega) hb, List.forall_mem_cons, and_iff_right]
    omega

/-- **One more token can stand in front of a tokenization**, with blanks in front of it and none in it. -/
theorem cons {t : Token} {us : List Token} (h : IsTokenization text label t.past us)
    (hkind : t.kind ≠ .endOfInput) (hlabel : t.span.start.file = label ∧ t.span.stop.file = label)
    (hfirst : p ≤ t.first) (hpast : t.first < t.past)
    (hfront : ∀ i b, p ≤ i → i < t.first → (bytes text)[i]? = some b → b ∈ blankBytes)
    (hinside : ∀ i b, t.first ≤ i → i < t.past → (bytes text)[i]? = some b → b ∉ blankBytes)
    (hlexeme : Lexeme.Is t.kind t.text ((bytes text).extract t.first t.past))
    (hstops : Lexeme.Stops t.text ((bytes text).drop t.past)) :
    IsTokenization text label p (t :: us) := by
  obtain ⟨init, rfl, hno⟩ := h.ends
  refine ⟨⟨t :: init, rfl, List.forall_mem_cons.mpr ⟨hkind, hno⟩⟩,
    List.forall_mem_cons.mpr ⟨hlabel, h.labelled⟩, List.forall_mem_cons.mpr ⟨hfirst, ?_⟩,
    List.forall_mem_cons.mpr ⟨fun _ => hpast, h.nonempty⟩,
    List.pairwise_cons.mpr ⟨h.behind, h.ordered⟩, ?_,
    List.forall_mem_cons.mpr ⟨fun _ => hlexeme, h.lexemes⟩, List.forall_mem_cons.mpr ⟨hstops, h.stops⟩⟩
  · intro u hu
    have hu := h.behind u hu
    omega
  · intro i b hi hb
    rw [List.forall_mem_cons]
    by_cases hlater : t.past ≤ i
    · rw [h.blanks i b hlater hb, and_iff_right]
      omega
    -- in front of its end, the new token alone decides which bytes are covered
    have hmiss : ∀ u ∈ init ++ [.endOf text label], ¬ (u.first ≤ i ∧ i < u.past) := by
      intro u hu
      have hu := h.behind u hu
      omega
    rw [and_iff_left hmiss]
    by_cases hbefore : i < t.first
    · exact iff_of_true (hfront i b hi hbefore hb) (by omega)
    · exact iff_of_false (hinside i b (by omega) (by omega) hb) (by omega)

end IsTokenization

/-! ### Where only blanks are left -/

/-- Where only blanks are left, the end token is the only one. -/
theorem isTokenization_blanks_iff (hsize : text.utf8ByteSize < 2 ^ 32) (hp : p ≤ text.utf8ByteSize)
    (hblank : ∀ b ∈ (bytes text).drop p, isBlank b = true) :
    IsTokenization text label p ts ↔ ts = [.endOf text label] := by
  obtain ⟨hfirst, hpast⟩ := Token.offsets_endOf label hsize
  have hbytes : ∀ i b, p ≤ i → (bytes text)[i]? = some b → isBlank b = true := by
    intro i b hi hb
    apply hblank
    rw [List.mem_iff_getElem?]
    refine ⟨i - p, ?_⟩
    rwa [List.getElem?_drop, Nat.add_sub_cancel' hi]
  constructor
  · intro h
    obtain ⟨init, rfl, hinit⟩ := h.ends
    rcases init with _ | ⟨t, init⟩
    · rfl
    · have ht : t ∈ t :: init ++ [Token.endOf text label] := List.mem_cons_self
      obtain ⟨b, hb, hno⟩ := h.exists_first hsize ht (hinit t List.mem_cons_self)
      rw [hbytes _ b (h.behind t ht) hb] at hno
      cases hno
  · rintro rfl
    refine ⟨⟨[], rfl, fun t ht => absurd ht List.not_mem_nil⟩, ?_, ?_, ?_, List.pairwise_singleton _ _,
      ?_, ?_, ?_⟩
    · intro t ht
      rw [List.mem_singleton.mp ht]
      exact ⟨rfl, rfl⟩
    · intro t ht
      rwa [List.mem_singleton.mp ht, hfirst]
    · intro t ht hkind
      rw [List.mem_singleton.mp ht] at hkind
      exact absurd rfl hkind
    · intro i b hi hb
      refine iff_of_true (isBlank_iff_mem_blankBytes.mp (hbytes i b hi hb)) ?_
      intro t ht hin
      rw [List.mem_singleton.mp ht, hfirst, hpast] at hin
      omega
    · intro t ht hkind
      rw [List.mem_singleton.mp ht] at hkind
      exact absurd rfl hkind
    · intro t ht
      rw [List.mem_singleton.mp ht, hpast, ← length_bytes, List.drop_length]
      exact Lexeme.stops_nil _

/-! ### One lexeme in front -/

section lexeme

variable {run rest : List UInt8} {b : UInt8}

/-- Where the bytes of a text stand, if blanks and a lexeme come next. -/
theorem getElem?_of_drop (hdrop : (bytes text).drop p = run ++ b :: rest) :
    (∀ i, i < run.length → (bytes text)[p + i]? = run[i]?) ∧
      (bytes text).drop (p + run.length) = b :: rest ∧
      (bytes text).drop (p + run.length + (b :: Lexeme.tail b rest).length) =
        Lexeme.after b rest ∧
      (bytes text).extract (p + run.length) (p + run.length + (b :: Lexeme.tail b rest).length) =
        b :: Lexeme.tail b rest := by
  have hstart : (bytes text).drop (p + run.length) = b :: rest := by
    rw [← List.drop_drop, hdrop, List.drop_left]
  refine ⟨?_, hstart, ?_, ?_⟩
  · intro i hi
    rw [← List.getElem?_drop, hdrop, List.getElem?_append_left hi]
  · rw [← List.drop_drop, hstart, List.length_cons, List.drop_succ_cons]
    rfl
  · show ((bytes text).drop (p + run.length)).take _ = _
    rw [hstart, Nat.add_sub_cancel_left, List.length_cons, List.take_succ_cons]
    rw [← List.prefix_iff_eq_take.mp (Lexeme.tail_isPrefix b rest)]

/-- The first token starts at the first byte that is no blank. -/
theorem IsTokenization.first_eq {t : Token} {us : List Token}
    (h : IsTokenization text label p (t :: us)) (hsize : text.utf8ByteSize < 2 ^ 32)
    (hdrop : (bytes text).drop p = run ++ b :: rest) (hrun : ∀ c ∈ run, isBlank c = true)
    (hb : isBlank b = false) : t.kind ≠ .endOfInput ∧ t.first = p + run.length := by
  obtain ⟨hfirst, hpast⟩ := Token.offsets_endOf label hsize
  obtain ⟨hbefore, hstart, -, -⟩ := getElem?_of_drop hdrop
  have hbyte : (bytes text)[p + run.length]? = some b := by
    rw [← List.head?_drop, hstart, List.head?_cons]
  have hlt : p + run.length < text.utf8ByteSize := by
    rw [← length_bytes]
    exact (List.getElem?_eq_some_iff.mp hbyte).1
  -- some token covers that byte, and no token in front of it can start at another
  have hcovered : ∃ u ∈ t :: us, u.first ≤ p + run.length ∧ p + run.length < u.past := by
    have hiff := h.blanks _ b (Nat.le_add_right _ _) hbyte
    rw [iff_false_left (isBlank_eq_false_iff.mp hb)] at hiff
    by_contra hnone
    exact hiff fun u hu hin => hnone ⟨u, hu, hin⟩
  obtain ⟨u, hu, hule, hult⟩ := hcovered
  have hkind : t.kind ≠ .endOfInput := by
    intro hend
    obtain ⟨init, hinit, hno⟩ := h.ends
    rcases init with _ | ⟨t', init⟩
    · obtain ⟨rfl, rfl⟩ := List.cons.inj hinit
      rw [List.mem_singleton.mp hu] at hule hult
      omega
    · obtain ⟨rfl, -⟩ := List.cons.inj hinit
      exact hno t List.mem_cons_self hend
  have hle : t.first ≤ p + run.length := by
    rcases List.mem_cons.mp hu with rfl | hu
    · exact hule
    · have hlater := List.rel_of_pairwise_cons h.ordered hu
      have hnonempty := h.nonempty t List.mem_cons_self hkind
      omega
  refine ⟨hkind, Nat.le_antisymm hle (Nat.le_of_not_lt fun hblank => ?_)⟩
  have hbehind := h.behind t List.mem_cons_self
  obtain ⟨c, hc, hno⟩ := h.exists_first hsize List.mem_cons_self hkind
  have hindex : t.first = p + (t.first - p) := by omega
  rw [hindex, hbefore _ (by omega)] at hc
  rw [hrun c (List.mem_of_getElem? hc)] at hno
  cases hno

/-- The first token is the lexeme behind the blanks. -/
theorem IsTokenization.head_eq {t : Token} {us : List Token}
    (h : IsTokenization text label p (t :: us)) (hsize : text.utf8ByteSize < 2 ^ 32)
    (hdrop : (bytes text).drop p = run ++ b :: rest) (hrun : ∀ c ∈ run, isBlank c = true)
    (hb : isBlank b = false) :
    t = (Scanner.mk rest (p + run.length) label).tokenOf (b :: Lexeme.tail b rest) := by
  obtain ⟨hkind, hfirst⟩ := h.first_eq hsize hdrop hrun hb
  obtain ⟨-, hstart, -, -⟩ := getElem?_of_drop hdrop
  have hle := h.past_le hsize List.mem_cons_self
  have hlt := h.nonempty t List.mem_cons_self hkind
  have hsplit : (bytes text).extract t.first t.past ++ (bytes text).drop t.past = b :: rest := by
    rw [← hstart, ← hfirst]
    have htake := List.take_append_drop (t.past - t.first) ((bytes text).drop t.first)
    rwa [List.drop_drop, Nat.add_sub_cancel' (Nat.le_of_lt hlt)] at htake
  obtain ⟨hlexeme, hface⟩ := Lexeme.eq_of_stops (h.lexemes t List.mem_cons_self hkind)
    (h.stops t List.mem_cons_self) hsplit
  have hlength : t.past - t.first = (b :: Lexeme.tail b rest).length := by
    rw [← hlexeme, List.length_take, List.length_drop, length_bytes]
    omega
  obtain ⟨kind, s, span⟩ := t
  have hk : Lexeme.kind (b :: Lexeme.tail b rest) = kind := (Prod.mk.inj hface).1
  have hs : Lexeme.text (b :: Lexeme.tail b rest) = s := (Prod.mk.inj hface).2
  have hspan : span = .ofRange label (p + run.length)
      (p + run.length + (b :: Lexeme.tail b rest).length) := by
    refine Span.eq_ofRange (h.labelled _ List.mem_cons_self) hfirst ?_
    rw [← hfirst, ← hlength]
    exact (Nat.add_sub_cancel' (Nat.le_of_lt hlt)).symm
  rw [hspan, ← hk, ← hs]
  rfl

/-- **A lexeme comes off in front**: a tokenization of blanks and a lexeme is the token of the lexeme in
front of a tokenization of what follows it. -/
theorem isTokenization_lexeme_iff (hsize : text.utf8ByteSize < 2 ^ 32)
    (hdrop : (bytes text).drop p = run ++ b :: rest) (hrun : ∀ c ∈ run, isBlank c = true)
    (hb : isBlank b = false) :
    IsTokenization text label p ts ↔ ∃ us,
      ts = (Scanner.mk rest (p + run.length) label).tokenOf (b :: Lexeme.tail b rest) :: us ∧
        IsTokenization text label (p + run.length + (b :: Lexeme.tail b rest).length) us := by
  obtain ⟨hbefore, -, hbehind, hextract⟩ := getElem?_of_drop hdrop
  set t := (Scanner.mk rest (p + run.length) label).tokenOf (b :: Lexeme.tail b rest) with ht
  set q := p + run.length + (b :: Lexeme.tail b rest).length with hq
  have hlength : (b :: Lexeme.tail b rest).length = (Lexeme.tail b rest).length + 1 := rfl
  have hqle : q ≤ text.utf8ByteSize := by
    have hcut := congrArg List.length hextract
    rw [List.length_take, List.length_drop, length_bytes] at hcut
    omega
  obtain ⟨hfirst, hpast⟩ : t.first = p + run.length ∧ t.past = q :=
    Span.toNat_offset_ofRange (Nat.le_add_right _ _) (Nat.lt_of_le_of_lt hqle hsize)
  have hkind : t.kind ≠ .endOfInput := Lexeme.kind_cons_ne_endOfInput _ _
  constructor
  · intro h
    obtain ⟨init, hinit, -⟩ := h.ends
    rcases ts with _ | ⟨t', us⟩
    · exact absurd hinit.symm (List.append_ne_nil_of_right_ne_nil _ (List.cons_ne_nil _ _))
    obtain rfl : t' = t := h.head_eq hsize hdrop hrun hb
    exact ⟨us, rfl, hpast ▸ h.of_cons hkind⟩
  · rintro ⟨us, rfl, h⟩
    refine (hpast.symm ▸ h).cons hkind ⟨rfl, rfl⟩ (by omega) (by omega) ?_ ?_ ?_ ?_
    · intro i c hi hlt hc
      rw [show i = p + (i - p) by omega, hbefore _ (by omega)] at hc
      exact isBlank_iff_mem_blankBytes.mp (hrun c (List.mem_of_getElem? hc))
    · intro i c hle hlt hc
      have hin : c ∈ b :: Lexeme.tail b rest := by
        rw [← hextract, List.mem_iff_getElem?]
        refine ⟨i - (p + run.length), ?_⟩
        rw [List.getElem?_take_of_lt (by omega), List.getElem?_drop, Nat.add_sub_cancel' (by omega)]
        exact hc
      exact isBlank_eq_false_iff.mp (Lexeme.isBlank_eq_false_of_mem hb hin)
    · rw [hfirst, hpast, hextract]
      exact Lexeme.is_tail hb rest
    · rw [hpast, hbehind]
      exact Lexeme.stops_tail hb rest

end lexeme

/-! ### All tokens -/

/-- **The tokenization of a text from a byte on is what a scanner gives from there.** -/
theorem isTokenization_iff_eq_tokens (hsize : text.utf8ByteSize < 2 ^ 32)
    (hp : p ≤ text.utf8ByteSize) :
    IsTokenization text label p ts ↔
      ts = (Scanner.mk ((bytes text).drop p) p label).tokens ++ [.endOf text label] := by
  generalize hn : text.utf8ByteSize - p = n
  induction n using Nat.strongRecOn generalizing p ts with
  | ind n ih =>
    subst hn
    rcases blanks_cases ((bytes text).drop p) with hblank | ⟨run, b, rest, hdrop, hrun, hb⟩
    · rw [isTokenization_blanks_iff hsize hp hblank, Scanner.tokens_of_blanks hblank, List.nil_append]
    · obtain ⟨-, -, hbehind, hextract⟩ := getElem?_of_drop hdrop
      have hlength := congrArg List.length hextract
      have hcons : (b :: Lexeme.tail b rest).length = (Lexeme.tail b rest).length + 1 := rfl
      rw [List.length_take, List.length_drop, length_bytes] at hlength
      rw [isTokenization_lexeme_iff hsize hdrop hrun hb, hdrop, Scanner.tokens_of_lexeme hrun hb]
      constructor
      · rintro ⟨us, rfl, h⟩
        rw [ih _ (by omega) (by omega) rfl, hbehind] at h
        rw [h, List.cons_append]
      · intro h
        refine ⟨_, h, (ih _ (by omega) (by omega) rfl).mpr ?_⟩
        rw [hbehind]
        rfl

/-- The end token is the only one of its kind. -/
theorem IsTokenization.eq_endOf (h : IsTokenization text label p ts) {t : Token} (ht : t ∈ ts)
    (hkind : t.kind = .endOfInput) : t = .endOf text label := by
  obtain ⟨init, rfl, hno⟩ := h.ends
  rcases List.mem_append.mp ht with ht | ht
  · exact absurd hkind (hno t ht)
  · exact List.mem_singleton.mp ht

/-- **The text of a token is a piece of the text**, between characters, unless it stands for a byte
beyond ASCII. -/
theorem IsTokenization.exists_append (h : IsTokenization text label p ts)
    (hsize : text.utf8ByteSize < 2 ^ 32) {t : Token} (ht : t ∈ ts) (htext : t.text ≠ "\ufffd") :
    ∃ before after, text = before ++ t.text ++ after ∧ before.utf8ByteSize = t.first := by
  by_cases hkind : t.kind = .endOfInput
  · have hend := h.eq_endOf ht hkind
    refine ⟨text, "", ?_, ?_⟩
    · rw [hend, String.append_empty]
      exact String.append_empty.symm
    · rw [hend, (Token.offsets_endOf label hsize).1]
  · have hlt := h.nonempty t ht hkind
    rcases h.lexemes t ht hkind with ⟨hspells, hbytes⟩ | ⟨b, -, -, -, hreplaced⟩
    · have hsplit : bytes text =
          (bytes text).take t.first ++ (bytes t.text ++ (bytes text).drop t.past) := by
        have htake := List.take_append_drop (t.past - t.first) ((bytes text).drop t.first)
        rw [List.drop_drop, Nat.add_sub_cancel' (Nat.le_of_lt hlt)] at htake
        have hpiece : bytes t.text = ((bytes text).drop t.first).take (t.past - t.first) := hbytes
        rw [hpiece, htake, List.take_append_drop]
      have hne : t.text ≠ "" := by
        intro hempty
        have hlength := congrArg List.length hbytes
        have hle := h.past_le hsize ht
        rw [hempty, bytes_empty, List.extract_eq_take_drop, List.length_take, List.length_drop,
          length_bytes, List.length_nil] at hlength
        omega
      obtain ⟨before, after, heq, hbefore, -⟩ := exists_append_of_ascii hspells.isAscii hne hsplit
      refine ⟨before, after, heq, ?_⟩
      have hle := h.past_le hsize ht
      rw [← length_bytes, hbefore, List.length_take, length_bytes]
      omega
    · exact absurd hreplaced htext

end tokenization

/-- The end token of a text stands at its end. -/
theorem Cursor.eof_ofText (text : String) (file : Option String) :
    (ofText text file).eof = .endOf text (file.getD Scanner.defaultLabel) := by
  rw [ofText, ofScanner, Scanner.ofText, Scanner.endToken, Nat.zero_add, length_bytes]
  rfl

/-- The tokens of a text are those that are cut off, and then the end token. -/
theorem tokenize_eq (text : String) (file : Option String) :
    tokenize text file = (Cursor.ofText text file).tokens ++
      [.endOf text (file.getD Scanner.defaultLabel)] := by
  rw [← Cursor.eof_ofText]
  rfl

/-- **The tokens that are cut off are a tokenization of the text.** -/
theorem isTokenization_tokenize (text : String) (file : Option String)
    (hsize : text.utf8ByteSize < 2 ^ 32) :
    IsTokenization text (file.getD Scanner.defaultLabel) 0 (tokenize text file) := by
  rw [tokenize_eq]
  exact (isTokenization_iff_eq_tokens hsize (Nat.zero_le _)).mpr rfl

/-- **A text has exactly one tokenization, and it is the one that `tokenize` gives.** The kind of each of
its tokens is a function of the text of the token, and that text is a piece of the whole text, cut
between characters, unless it stands for a byte beyond ASCII. -/
theorem isTokenization_iff_eq_tokenize (text : String) (file : Option String)
    (hsize : text.utf8ByteSize < 2 ^ 32) :
    (∀ ts, IsTokenization text (file.getD Scanner.defaultLabel) 0 ts ↔ ts = tokenize text file) ∧
    (∀ kind kind' s, Spells kind s → Spells kind' s → kind = kind') ∧
    (∀ t ∈ tokenize text file, t.text ≠ "\ufffd" →
      ∃ before after, text = before ++ t.text ++ after ∧ before.utf8ByteSize = t.first) := by
  have hiff : ∀ ts, IsTokenization text (file.getD Scanner.defaultLabel) 0 ts ↔
      ts = tokenize text file := by
    intro ts
    rw [tokenize_eq]
    exact isTokenization_iff_eq_tokens hsize (Nat.zero_le _)
  refine ⟨hiff, ?_, ?_⟩
  · intro kind kind' s h h'
    exact (Prod.mk.inj (h.face.symm.trans h'.face)).1
  · intro t ht htext
    exact ((hiff _).mpr rfl).exists_append hsize ht htext

/-- Two operators with nothing between them, a number with a reserved word behind it, a word that starts as a
reserved one, a character beyond ASCII, and an `=` at the end. -/
theorem isTokenization_mixed :
    "x1 ===12let\té!= iff =".utf8ByteSize < 2 ^ 32 ∧
    IsTokenization "x1 ===12let\té!= iff =" "shell" 0 (tokenize "x1 ===12let\té!= iff =" none) ∧
    ((tokenize "x1 ===12let\té!= iff =" none).map fun t => (t.kind, t.text, t.first, t.past)) =
      [(.identifier, "x1", 0, 2), (.equal, "==", 3, 5), (.assign, "=", 5, 6), (.integer, "12", 6, 8),
        (.letWord, "let", 8, 11), (.illegal, "\ufffd", 12, 13), (.illegal, "\ufffd", 13, 14),
        (.notEqual, "!=", 14, 16), (.identifier, "iff", 17, 20), (.assign, "=", 21, 22),
        (.endOfInput, "", 22, 22)] := by
  have hsize : "x1 ===12let\té!= iff =".utf8ByteSize < 2 ^ 32 := by decide
  obtain ⟨hiff, -, -⟩ := isTokenization_iff_eq_tokenize "x1 ===12let\té!= iff =" none hsize
  exact ⟨hsize, (hiff _).mpr rfl, by decide⟩

end Prattle
