import Prattle.Proofs.RoundTrip
import Prattle.Proofs.Simulation

/-!
# Layout and labels

A text is read by the kinds and the texts of its tokens. Where they stand, and in which file, is only
passed on.

* **Texts with the same tokens are read alike up to positions** (`Grammar.unplaced_of_faces`), whatever
  blanks stand between the tokens.
* **Another label changes nothing but the label** (`relocated_relabel`), and every position carries the
  label of the text (`file_of_parse`).
* Both together are `parse_of_faces`.
-/

namespace Prattle

variable {f : Position → Position}

/-! ### Programs at other places -/

/-- Rendering does not look at positions. -/
theorem Stmt.render_relocate (s : Stmt) : (s.relocate f).render = s.render := by
  have hvalue : ∀ v : Option Expr, (v.map (·.relocate f)).elim "" Expr.render = v.elim "" Expr.render := by
    rintro (_ | e)
    · rfl
    · exact Expr.render_relocate e
  cases s with
  | binding t name value span => rw [relocate, render, render, hvalue]; rfl
  | returning t value span => rw [relocate, render, render, hvalue]; rfl
  | expression t value span => rw [relocate, render, render, hvalue]

namespace Program

/-- The same program at other places. -/
def relocate (f : Position → Position) (p : Program) : Program :=
  ⟨p.statements.map (·.relocate f)⟩

/-- The program without its places. -/
def unplaced (p : Program) : Program :=
  p.relocate fun _ => default

/-- Moving a program elsewhere leaves as many statements as before. -/
theorem length_relocate (p : Program) : (p.relocate f).statements.length = p.statements.length :=
  List.length_map ..

/-- Moving a program elsewhere leaves its canonical form. -/
theorem render_relocate (p : Program) : (p.relocate f).render = p.render := by
  have hrender : Stmt.render ∘ (·.relocate f) = Stmt.render := funext Stmt.render_relocate
  rw [render, render, relocate, List.map_map, hrender]

end Program

/-- The programs and the errors are the same up to positions. -/
structure SameUpToPlaces (r r' : Program × List SyntaxError) : Prop where
  program : r.1.unplaced = r'.1.unplaced
  errors : r.2.map SyntaxError.unplaced = r'.2.map SyntaxError.unplaced

namespace SameUpToPlaces

variable {r r' : Program × List SyntaxError}

/-- Results that are the same up to places have equally many statements. -/
theorem length (h : SameUpToPlaces r r') : r.1.statements.length = r'.1.statements.length := by
  rw [← Program.length_relocate, ← Program.unplaced, h.program, Program.unplaced,
    Program.length_relocate]

/-- Results that are the same up to places have the same canonical form. -/
theorem render (h : SameUpToPlaces r r') : r.1.render = r'.1.render := by
  rw [← Program.render_relocate, ← Program.unplaced, h.program, Program.unplaced,
    Program.render_relocate]

/-- Results that are the same up to places have errors of the same causes, in the same order. -/
theorem causes (h : SameUpToPlaces r r') :
    r.2.map SyntaxError.cause = r'.2.map SyntaxError.cause := by
  have hcause := congrArg (List.map SyntaxError.cause) h.errors
  rwa [List.map_map, List.map_map] at hcause

end SameUpToPlaces

/-! ### Layout -/

namespace Token

variable {ts ts' : List Token}

/-- Tokens of the same faces are the same once their places are forgotten. -/
theorem map_relocate_of_faces {p : Position} (h : ts.map face = ts'.map face) :
    ts.map (·.relocate fun _ => p) = ts'.map (·.relocate fun _ => p) := by
  have hface : (fun t : Token => t.relocate fun _ => p) =
      (fun face => ⟨face.1, face.2, ⟨p, p⟩⟩) ∘ face := rfl
  rw [hface, ← List.map_map, ← List.map_map, h]

end Token

namespace Grammar

/-- **Texts with the same tokens are read alike up to positions.** -/
theorem unplaced_of_faces {c d : Cursor} (htokens : c.faces = d.faces)
    (heof : c.eof.face = d.eof.face) :
    (Reading.values (standard.statements c)).map Stmt.unplaced =
        (Reading.values (standard.statements d)).map Stmt.unplaced ∧
      (Reading.errors (standard.statements c)).map SyntaxError.unplaced =
        (Reading.errors (standard.statements d)).map SyntaxError.unplaced := by
  -- both are the same tokens without their places
  let m : Cursor := ⟨c.tokens.map (·.relocate fun _ => default), c.eof.relocate fun _ => default, 0⟩
  have hc : Relocated (fun _ => default) c m := ⟨rfl, rfl⟩
  have hd : Relocated (fun _ => default) d m :=
    ⟨Token.map_relocate_of_faces htokens.symm, Token.relocate_of_face heof.symm⟩
  obtain ⟨hvalues, herrors⟩ := statements_of_relocated hc
  obtain ⟨hvalues', herrors'⟩ := statements_of_relocated hd
  exact ⟨hvalues.trans hvalues'.symm, herrors.trans herrors'.symm⟩

end Grammar

/-! ### Labels -/

/-- The same offset in a file with another label. -/
def Position.relabel (label : String) (p : Position) : Position :=
  { p with file := label }

section labels

variable (text : String) (file file' : Option String)

/-- **A text under another label has the same tokens under that label.** -/
theorem relocated_relabel :
    Grammar.Relocated (Position.relabel (file'.getD "shell")) (Cursor.ofText text file)
      (Cursor.ofText text file') :=
  ⟨Scanner.map_relocate_tokens fun _ _ => rfl, Scanner.relocate_endToken rfl⟩

/-- **Every position carries the label of the text.** -/
theorem file_of_parse :
    (∀ s ∈ (parse text file).1.statements, ∀ p ∈ s.positions, p.file = file.getD "shell") ∧
      ∀ e ∈ (parse text file).2, e.position.file = file.getD "shell" := by
  obtain ⟨hpositions, hposition⟩ := Grammar.fixed_of_relocated (relocated_relabel text file file)
  rw [parse_eq]
  exact ⟨fun s hs p hp => (congrArg Position.file (hpositions s hs p hp)).symm,
    fun e he => (congrArg Position.file (hposition e he)).symm⟩

end labels

/-- **A text is read by the kinds and the texts of its tokens.** Texts in which these are the same give
the same program and the same errors up to positions, whatever stands between the tokens and whatever the
files are called. One text under two labels gives the same offsets too, and every position carries the
label of its file. -/
theorem parse_of_faces (text text' : String) (file file' : Option String) :
    ((tokenize text file).map Token.face = (tokenize text' file').map Token.face →
      SameUpToPlaces (parse text file) (parse text' file') ∧
      (parse text file).1.statements.length = (parse text' file').1.statements.length ∧
      (parse text file).1.render = (parse text' file').1.render) ∧
    ((parse text file').1 = (parse text file).1.relocate (Position.relabel (file'.getD "shell")) ∧
      (parse text file').2 =
        (parse text file).2.map (·.relocate (Position.relabel (file'.getD "shell"))) ∧
      (∀ s ∈ (parse text file).1.statements, ∀ p ∈ s.positions, p.file = file.getD "shell") ∧
      ∀ e ∈ (parse text file).2, e.position.file = file.getD "shell") := by
  constructor
  · intro htokens
    rw [tokenize, tokenize, List.map_append, List.map_append] at htokens
    obtain ⟨hfaces, heof⟩ := List.append_inj' htokens rfl
    obtain ⟨hvalues, herrors⟩ := Grammar.unplaced_of_faces
      (c := Cursor.ofText text file) (d := Cursor.ofText text' file') hfaces (List.cons.inj heof).1
    have hsame : SameUpToPlaces (parse text file) (parse text' file') := by
      rw [parse_eq, parse_eq]
      exact ⟨congrArg Program.mk hvalues, herrors⟩
    exact ⟨hsame, hsame.length, hsame.render⟩
  · obtain ⟨hvalues, herrors⟩ := Grammar.statements_of_relocated (relocated_relabel text file file')
    obtain ⟨hpositions, hposition⟩ := file_of_parse text file
    refine ⟨?_, ?_, hpositions, hposition⟩
    · rw [parse_eq, parse_eq]
      exact congrArg Program.mk hvalues.symm
    · rw [parse_eq, parse_eq]
      exact herrors.symm

/-- A broken group, spread over lines under an empty label. -/
theorem parse_of_faces_spread :
    (tokenize "(a+ 1;b" none).map Token.face = (tokenize " ( a +\n1 ; b\t" (some "")).map Token.face ∧
    SameUpToPlaces (parse "(a+ 1;b" none) (parse " ( a +\n1 ; b\t" (some "")) := by
  have hfaces : (tokenize "(a+ 1;b" none).map Token.face =
      (tokenize " ( a +\n1 ; b\t" (some "")).map Token.face := by decide
  exact ⟨hfaces, ((parse_of_faces "(a+ 1;b" " ( a +\n1 ; b\t" none (some "")).1 hfaces).1⟩

end Prattle
