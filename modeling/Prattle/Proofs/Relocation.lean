import Prattle.Stmt.Basic
import Prattle.SyntaxError

/-!
# Relocation

Tokens, trees, statements and errors carry positions. `relocate f` sends every position in one of
them through `f` and keeps everything else, and `positions` lists the positions it sends.

* **Two instances** have names: `shift n` counts every offset `n` bytes further on, and `unplaced`
  forgets where things stand, so `a.unplaced = b.unplaced` says that `a` and `b` are equal up to
  positions.
* **Relocation changes nothing iff it fixes every position there is**
  (`Expr.relocate_eq_self_iff` and its siblings).
-/

namespace Prattle

variable {f : Position → Position}

/-- The position `n` bytes further on in the same file. -/
def Position.shift (n : Nat) (p : Position) : Position :=
  { p with offset := p.offset + n.toUInt32 }

namespace Position

/-- A position that stands behind the first `n` bytes is moved to their start. -/
def within (n : Nat) (p : Position) : Position :=
  if p.offset.toNat ≤ n then p else { p with offset := 0 }

/-- A position is not moved if it is no further behind than the bound. -/
theorem within_eq_self_iff {n : Nat} {p : Position} : p.within n = p ↔ p.offset.toNat ≤ n := by
  unfold within
  by_cases h : p.offset.toNat ≤ n
  · rw [if_pos h]
    exact iff_of_true rfl h
  · rw [if_neg h]
    refine iff_of_false (fun heq => h ?_) h
    rw [← congrArg Position.offset heq]
    exact Nat.zero_le n

/-- Shifting adds to the offset, and wraps around where the offset does. -/
theorem shift_mk (n k : Nat) (file : String) :
    shift n ⟨k.toUInt32, file⟩ = ⟨(n + k).toUInt32, file⟩ := by
  have hadd : (n + k).toUInt32 = n.toUInt32 + k.toUInt32 := UInt32.ofNat_add n k
  rw [shift, hadd, UInt32.add_comm]

end Position

/-! ### Spans and tokens -/

namespace Span

/-- The span between the images of the ends. -/
def relocate (f : Position → Position) (s : Span) : Span :=
  ⟨f s.start, f s.stop⟩

/-- The two ends. -/
def positions (s : Span) : List Position :=
  [s.start, s.stop]

/-- The start of a moved span is the moved start. -/
@[simp] theorem start_relocate (s : Span) : (s.relocate f).start = f s.start := rfl

/-- The end of a moved span is the moved end. -/
@[simp] theorem stop_relocate (s : Span) : (s.relocate f).stop = f s.stop := rfl

/-- Moving two spans moves the span from one to the other. -/
@[simp] theorem relocate_upTo (a b : Span) :
    (a.upTo b).relocate f = (a.relocate f).upTo (b.relocate f) := rfl

/-- A span stays where it is if its positions do. -/
theorem relocate_eq_self_iff {s : Span} : s.relocate f = s ↔ ∀ p ∈ s.positions, f p = p := by
  obtain ⟨a, b⟩ := s
  simp [relocate, positions]

end Span

namespace Token

/-- The same token at other places. -/
def relocate (f : Position → Position) (t : Token) : Token :=
  { t with span := t.span.relocate f }

/-- The places that the token mentions. -/
def positions (t : Token) : List Position :=
  t.span.positions

/-- What the token is, wherever it stands. -/
def face (t : Token) : TokenKind × String :=
  (t.kind, t.text)

/-- A token that is moved keeps its kind. -/
@[simp] theorem kind_relocate (t : Token) : (t.relocate f).kind = t.kind := rfl

/-- A token that is moved keeps its text. -/
@[simp] theorem text_relocate (t : Token) : (t.relocate f).text = t.text := rfl

/-- The span of a moved token is the moved span. -/
@[simp] theorem span_relocate (t : Token) : (t.relocate f).span = t.span.relocate f := rfl

/-- A token stays where it is if its positions do. -/
theorem relocate_eq_self_iff {t : Token} : t.relocate f = t ↔ ∀ p ∈ t.positions, f p = p := by
  obtain ⟨k, x, s⟩ := t
  simp [relocate, positions, Span.relocate_eq_self_iff]

/-- Tokens of one face differ in their places only. -/
theorem relocate_of_face {t t' : Token} {p : Position} (h : t.face = t'.face) :
    t.relocate (fun _ => p) = t'.relocate fun _ => p := by
  obtain ⟨hkind, htext⟩ := Prod.mk.inj h
  rw [relocate, relocate, hkind, htext]
  rfl

end Token

/-! ### Trees -/

namespace Identifier

/-- The same name at other places. -/
def relocate (f : Position → Position) (id : Identifier) : Identifier :=
  ⟨id.token.relocate f, id.name, id.span.relocate f⟩

/-- The places that the name mentions. -/
def positions (id : Identifier) : List Position :=
  id.token.positions ++ id.span.positions

/-- A moved name is that of the moved token. -/
theorem relocate_ofToken (t : Token) : (ofToken t).relocate f = ofToken (t.relocate f) := rfl

/-- A name stays where it is if its positions do. -/
theorem relocate_eq_self_iff {id : Identifier} :
    id.relocate f = id ↔ ∀ p ∈ id.positions, f p = p := by
  obtain ⟨t, n, s⟩ := id
  simp [relocate, positions, Token.relocate_eq_self_iff, Span.relocate_eq_self_iff, or_imp,
    forall_and]

end Identifier

namespace Expr

/-- The same tree at other places. -/
def relocate (f : Position → Position) : Expr → Expr
  | identifier id => identifier (id.relocate f)
  | integer t v s => integer (t.relocate f) v (s.relocate f)
  | boolean t v s => boolean (t.relocate f) v (s.relocate f)
  | unary t op e s => unary (t.relocate f) op (e.relocate f) (s.relocate f)
  | binary t op l r s => binary (t.relocate f) op (l.relocate f) (r.relocate f) (s.relocate f)

/-- The places that the tree mentions. -/
def positions : Expr → List Position
  | identifier id => id.positions
  | integer t _ s => t.positions ++ s.positions
  | boolean t _ s => t.positions ++ s.positions
  | unary t _ e s => t.positions ++ e.positions ++ s.positions
  | binary t _ l r s => t.positions ++ l.positions ++ r.positions ++ s.positions

/-- The tree without its places. -/
def unplaced (e : Expr) : Expr :=
  e.relocate fun _ => default

/-- The span of a moved tree is the moved span. -/
@[simp] theorem span_relocate (e : Expr) : (e.relocate f).span = e.span.relocate f := by
  cases e <;> rfl

/-- A tree stays where it is if its positions do. -/
theorem relocate_eq_self_iff {e : Expr} : e.relocate f = e ↔ ∀ p ∈ e.positions, f p = p := by
  induction e with
  | identifier id => simp [relocate, positions, Identifier.relocate_eq_self_iff]
  | integer t v s | boolean t v s =>
    simp [relocate, positions, Token.relocate_eq_self_iff, Span.relocate_eq_self_iff, or_imp,
      forall_and]
  | unary t op e s ih =>
    simp [relocate, positions, Token.relocate_eq_self_iff, Span.relocate_eq_self_iff, ih, or_imp,
      forall_and]
  | binary t op l r s ihl ihr =>
    simp [relocate, positions, Token.relocate_eq_self_iff, Span.relocate_eq_self_iff, ihl, ihr,
      or_imp, forall_and]

end Expr

/-! ### Statements and errors -/

namespace Stmt

/-- The same statement at other places. -/
def relocate (f : Position → Position) : Stmt → Stmt
  | binding t id v s => binding (t.relocate f) (id.relocate f) (v.map (·.relocate f)) (s.relocate f)
  | returning t v s => returning (t.relocate f) (v.map (·.relocate f)) (s.relocate f)
  | expression t v s => expression (t.relocate f) (v.map (·.relocate f)) (s.relocate f)

/-- The places that the statement mentions. -/
def positions : Stmt → List Position
  | binding t id v s => t.positions ++ id.positions ++ v.elim [] Expr.positions ++ s.positions
  | returning t v s => t.positions ++ v.elim [] Expr.positions ++ s.positions
  | expression t v s => t.positions ++ v.elim [] Expr.positions ++ s.positions

/-- The same statement `n` bytes further on. -/
def shift (n : Nat) (s : Stmt) : Stmt :=
  s.relocate (Position.shift n)

/-- The statement without its places. -/
def unplaced (s : Stmt) : Stmt :=
  s.relocate fun _ => default

/-- A statement stays where it is if its positions do. -/
theorem relocate_eq_self_iff {s : Stmt} : s.relocate f = s ↔ ∀ p ∈ s.positions, f p = p := by
  cases s with
  | binding t id v s =>
    cases v <;> simp [relocate, positions, Token.relocate_eq_self_iff, Span.relocate_eq_self_iff,
      Identifier.relocate_eq_self_iff, Expr.relocate_eq_self_iff, or_imp, forall_and]
  | returning t v s | expression t v s =>
    cases v <;> simp [relocate, positions, Token.relocate_eq_self_iff, Span.relocate_eq_self_iff,
      Expr.relocate_eq_self_iff, or_imp, forall_and]

/-- Moving a statement nowhere leaves it as it is. -/
@[simp] theorem relocate_id (s : Stmt) : s.relocate id = s :=
  relocate_eq_self_iff.mpr fun _ _ => rfl

end Stmt

namespace SyntaxError

/-- The same error blamed on another place. -/
def relocate (f : Position → Position) (e : SyntaxError) : SyntaxError :=
  { e with position := f e.position }

/-- The same error `n` bytes further on. -/
def shift (n : Nat) (e : SyntaxError) : SyntaxError :=
  e.relocate (Position.shift n)

/-- The error without its place. -/
def unplaced (e : SyntaxError) : SyntaxError :=
  e.relocate fun _ => default

/-- An error stays where it is if its position does. -/
theorem relocate_eq_self_iff {e : SyntaxError} :
    e.relocate f = e ↔ f e.position = e.position := by
  obtain ⟨c, p⟩ := e
  simp [relocate]

/-- Moving an error nowhere leaves it as it is. -/
@[simp] theorem relocate_id (e : SyntaxError) : e.relocate id = e := rfl

end SyntaxError

end Prattle
