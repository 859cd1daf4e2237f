import Prattle.Proofs.Runs

/-!
# What is parsed is well-formed

A statement is `WellFormed` if it is one that a text without an error can have: its tokens spell it, and
only the place of its value or expression is ever empty. The tokens of a text are spelled, and a tree
takes its nodes from the tokens it is over, so every statement of such a text is well-formed.

* **A tree over spelled tokens is well-formed** (`Expr.Covers.wellFormed`).
* **The statements of a text without an error are well-formed** (`wellFormed_of_parse`).
-/

namespace Prattle

namespace Token.Spelled

variable {t : Token} {kind : TokenKind} {s : String}

/-- The text of a token that is not illegal spells its kind. -/
theorem spells (h : t.Spelled) (hkind : t.kind = kind) (hlegal : kind ≠ .illegal) :
    Spells kind t.text := by
  rcases h with hillegal | hspells
  · exact absurd (hkind.symm.trans hillegal) hlegal
  · rwa [hkind] at hspells

/-- A token of a kind with one spelling has that text. -/
theorem face (h : t.Spelled) (hkind : t.kind = kind)
    (hfixed : kind ∉ [.identifier, .integer, .illegal]) (hs : Spells kind s) : t.face = (kind, s) := by
  have hlegal : kind ≠ .illegal := by
    rintro rfl
    exact hfixed (by decide)
  rw [Token.face, hkind, (h.spells hkind hlegal).text_eq hs hfixed]

end Token.Spelled

/-- The spelling of a unary operator spells its kind. -/
theorem UnaryOp.spells (op : UnaryOp) : Spells op.kind op.spelling := by
  cases op
  · exact @Spells.symbol .minus (by decide)
  · exact @Spells.symbol .bang (by decide)

/-- The spelling of a binary operator spells its kind. -/
theorem BinaryOp.spells (op : BinaryOp) : Spells op.kind op.spelling := by
  have hname : op.spelling = op.kind.name := by cases op <;> rfl
  rw [hname]
  exact .symbol (by cases op <;> decide)

/-! ### Trees -/

namespace Expr

/-- A leaf that is read is well formed. -/
theorem wellFormed_of_primary {t : Token} {e : Expr} (ht : t.Spelled) (h : t.primary = .ok e) :
    e.WellFormed := by
  rcases Token.primary_eq_ok h with ⟨v, hkind, hvalue, rfl⟩ | ⟨hkind, rfl⟩ | ⟨hkind, rfl⟩ |
      ⟨hkind, rfl⟩
  · exact ⟨hkind, (ht.spells hkind (by decide)).of_integer, hvalue⟩
  · obtain ⟨hword, hfree⟩ := (ht.spells hkind (by decide)).of_identifier
    exact ⟨hkind, rfl, hword, hfree⟩
  · exact ht.face hkind (by decide) (.reserved (by decide))
  · exact ht.face hkind (by decide) (.reserved (by decide))

/-- **A tree over spelled tokens is well-formed.** -/
theorem Covers.wellFormed {e : Expr} {ts : List Token} (h : e.Covers ts)
    (hts : ∀ t ∈ ts, t.Spelled) : e.WellFormed := by
  induction h with
  | leaf primary => exact wellFormed_of_primary (hts _ List.mem_cons_self) primary
  | group left inner right ih =>
    exact ih fun t ht => hts t (List.mem_append_left _ (List.mem_cons_of_mem _ ht))
  | @unary t op ts e kind operand ih =>
    obtain ⟨ht, hts⟩ := List.forall_mem_cons.mp hts
    refine ⟨ht.face kind.symm ?_ op.spells, ih hts⟩
    cases op <;> decide
  | @binary t op ls rs l r left kind right ihl ihr =>
    obtain ⟨hls, hrs⟩ := List.forall_mem_append.mp hts
    obtain ⟨ht, hrs⟩ := List.forall_mem_cons.mp hrs
    refine ⟨ht.face kind.symm ?_ op.spells, ihl hls, ihr hrs⟩
    cases op <;> decide

end Expr

/-! ### Statements -/

/-- The statement is one that a text without an error can have. -/
def Stmt.WellFormed : Stmt → Prop
  | binding t name value _ =>
    t.face = (.letWord, "let") ∧ (Expr.identifier name).WellFormed ∧ value = none
  | returning t value _ => t.face = (.returnWord, "return") ∧ value = none
  | expression _ value _ => ∃ e, value = some e ∧ e.WellFormed

namespace Reading

variable {eof : Token} {r : Reading (Option Stmt)} {rs : List (Reading (Option Stmt))}
  {run rest : List Token} {runs : List (List Token)}

/-- A reading of spelled tokens without a failure gives a well-formed statement. -/
theorem Takes.wellFormed (h : r.Takes eof run rest) (hrun : ∀ t ∈ run, t.Spelled)
    (hnone : r.failure? = none) : ∃ s, r.value = some s ∧ s.WellFormed := by
  cases h with
  | @binding t name assign xs stop rest c kind isName isAssign skipped isEnd =>
    obtain ⟨ht, hrun⟩ := List.forall_mem_cons.mp hrun
    obtain ⟨hname, -⟩ := List.forall_mem_cons.mp hrun
    obtain ⟨hword, hfree⟩ := (hname.spells isName (by decide)).of_identifier
    exact ⟨_, rfl, ht.face kind (by decide) (.reserved (by decide)), ⟨isName, rfl, hword, hfree⟩, rfl⟩
  | @returning t xs stop rest c kind skipped isEnd =>
    obtain ⟨ht, -⟩ := List.forall_mem_cons.mp hrun
    exact ⟨_, rfl, ht.face kind (by decide) (.reserved (by decide)), rfl⟩
  | expression covers passed starts ends =>
    exact ⟨_, rfl, _, rfl, covers.wellFormed (List.forall_mem_append.mp hrun).1⟩
  | broken | unnamed | unassigned => cases hnone

/-- **The statements that are read without an error are well formed.** -/
theorem Cuts.wellFormed (h : Cuts eof rs runs) (hruns : ∀ t ∈ runs.flatten, t.Spelled)
    (herrors : errors rs = []) : ∀ s ∈ values rs, s.WellFormed := by
  induction h with
  | nil => exact fun s hs => absurd hs List.not_mem_nil
  | @cons r rs run runs first more ih =>
    rw [List.flatten_cons, List.forall_mem_append] at hruns
    rw [errors_cons, List.append_eq_nil_iff] at herrors
    have hnone : r.failure? = none := by simpa [Option.toList_eq_nil_iff] using herrors.1
    obtain ⟨s, hvalue, hs⟩ := first.wellFormed hruns.1 hnone
    rw [values_cons, hvalue]
    exact List.forall_mem_cons.mpr ⟨hs, ih hruns.2 herrors.2⟩

end Reading

/-- **The statements of a text without an error are well-formed.** -/
theorem wellFormed_of_parse {text : String} {file : Option String} (h : (parse text file).2 = []) :
    ∀ s ∈ (parse text file).1.statements, s.WellFormed := by
  rw [parse_eq] at h ⊢
  obtain ⟨runs, hflatten, hcuts⟩ := Grammar.cuts_statements (Cursor.terminated_ofText text file)
  refine hcuts.wellFormed ?_ h
  rw [hflatten]
  exact Scanner.spelled_of_mem

end Prattle
