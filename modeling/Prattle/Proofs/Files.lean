import Mathlib.Data.List.Basic
import Prattle.FileTree

/-!
# A file is read where it was inserted

`Place.along` is the place that names lead to, `FileTree.place` the one that a path leads to. A path can be
followed if it is not empty, neither it nor any of its names is too long (`FileTree.IsShort`), and every place
on the way is there.

* **The way of names ends where they lead** (`Place.getLastD_way`), and is a directory up to there in a tree
  with a file at its end.
* **The file that was inserted last is read back** (`FileTree.read_insert`), unless its own path makes a
  directory of it.
* **The other files are read as before** (`FileTree.read_insert_of_ne`), unless they are in the way of the
  new one.
-/

namespace Prattle

namespace Place

/-- The place that names lead to, one after the other. -/
def along (place : Place) (names : List String) : Place :=
  names.foldl enter place

/-- A way starts where it starts. -/
theorem way_eq_cons (place : Place) (names : List String) :
    ∃ more, place.way names = place :: more := by
  cases names with
  | nil => exact ⟨[], rfl⟩
  | cons name rest => exact ⟨(place.enter name).way rest, rfl⟩

/-- What the way of a further name passes through: where it starts, and the way from the name on. -/
theorem dropLast_way_cons (place : Place) (name : String) (rest : List String) :
    (place.way (name :: rest)).dropLast = place :: ((place.enter name).way rest).dropLast := by
  obtain ⟨more, hmore⟩ := (place.enter name).way_eq_cons rest
  rw [way, hmore, List.dropLast_cons_cons]

/-- **A way ends where its names lead.** -/
theorem getLastD_way (place default : Place) (names : List String) :
    (place.way names).getLastD default = place.along names := by
  induction names generalizing place default with
  | nil => rfl
  | cons name rest ih =>
    rw [way, List.getLastD_cons, ih]
    rfl

end Place

namespace FileTree

variable {t t' : FileTree} {path path' : String} {content content' : ByteArray}

/-- The place that a path leads to. -/
def place (path : String) : Place :=
  (start path).along (names path)

/-- The path can be looked up: it is not empty, and neither it nor a name in it is too long. -/
structure IsShort (path : String) : Prop where
  ne_empty : path ≠ ""
  length : path.utf8ByteSize ≤ maxPathLength
  lengths : ∀ name ∈ names path, name.utf8ByteSize ≤ maxNameLength

/-! ### Following names -/

/-- A name is followed from a directory to anything that is there. -/
theorem follow_eq_ok {place : Place} {name : String} (hdirectory : t.isDirectory place = true)
    (hlength : name.utf8ByteSize ≤ maxNameLength) (hholds : t.holds (place.enter name) = true) :
    t.follow place name = .ok (place.enter name) := by
  rw [follow, if_neg (by simp [hdirectory]), if_neg (Nat.not_lt.mpr hlength), if_pos hholds]

/-- **Names can be followed if their way leads through directories to something that is there.** -/
theorem foldlM_follow_eq_ok {place : Place} {names : List String}
    (hlengths : ∀ name ∈ names, name.utf8ByteSize ≤ maxNameLength)
    (hway : ∀ p ∈ (place.way names).dropLast, t.isDirectory p = true)
    (hend : t.holds (place.along names) = true) :
    names.foldlM t.follow place = .ok (place.along names) := by
  induction names generalizing place with
  | nil => rfl
  | cons name rest ih =>
    rw [Place.dropLast_way_cons] at hway
    obtain ⟨hplace, hrest⟩ := List.forall_mem_cons.mp hway
    obtain ⟨hname, hnames⟩ := List.forall_mem_cons.mp hlengths
    have hnext : t.holds (place.enter name) = true := by
      cases rest with
      | nil => exact hend
      | cons next rest =>
        rw [Place.dropLast_way_cons] at hrest
        rw [holds, hrest _ List.mem_cons_self, Bool.true_or]
    rw [List.foldlM_cons, follow_eq_ok hplace hname hnext]
    exact ih hnames hrest hend

/-- A path that can be looked up is found if its way leads through directories to something that is
there. -/
theorem find_eq_ok (hpath : IsShort path)
    (hway : ∀ p ∈ ((start path).way (names path)).dropLast, t.isDirectory p = true)
    (hend : t.holds (place path) = true) : t.find path = .ok (place path) := by
  rw [find, if_neg hpath.ne_empty, if_neg (Nat.not_lt.mpr hpath.length)]
  exact foldlM_follow_eq_ok hpath.lengths hway hend

/-! ### The file that was inserted -/

/-- The inserted file comes first, at the place of its path. -/
theorem files_insert (t : FileTree) (path : String) (content : ByteArray) :
    (t.insert path content).files = (place path, content) :: t.files := by
  rw [insert, Place.getLastD_way]
  rfl

/-- The inserted file is at the place of its path. -/
theorem file?_insert (t : FileTree) (path : String) (content : ByteArray) :
    (t.insert path content).file? (place path) = some content := by
  rw [file?, files_insert, List.lookup_cons_self]

/-- **A file is read back as it was inserted**, whatever was there before, unless the path makes a directory
of its last place. -/
theorem read_insert (hpath : IsShort path)
    (hfile : (t.insert path content).isDirectory (place path) = false) :
    (t.insert path content).read path = .ok content := by
  have hway : ∀ p ∈ ((start path).way (names path)).dropLast,
      (t.insert path content).isDirectory p = true := by
    intro p hp
    have hmem : p ∈ (t.insert path content).directories := List.mem_append_left _ hp
    rw [isDirectory, List.contains_iff_mem.mpr hmem, Bool.or_true]
  have hend : (t.insert path content).holds (place path) = true := by
    rw [holds, file?_insert, Option.isSome_some, Bool.or_true]
  rw [read, find_eq_ok hpath hway hend]
  dsimp only
  rw [hfile, file?_insert]
  rfl

/-! ### The other files -/

/-- Everything that is in one tree is in the other, a directory as a directory. -/
structure Extends (t' t : FileTree) : Prop where
  isDirectory : ∀ p, t.isDirectory p = true → t'.isDirectory p = true
  holds : ∀ p, t.holds p = true → t'.holds p = true

/-- A tree with one more file has everything that was there. -/
theorem extends_insert (t : FileTree) (path : String) (content : ByteArray) :
    (t.insert path content).Extends t := by
  have hdirectory : ∀ p, t.isDirectory p = true → (t.insert path content).isDirectory p = true := by
    intro p hp
    rw [isDirectory, Bool.or_eq_true, List.contains_iff_mem] at hp ⊢
    exact hp.imp_right (List.mem_append_right _)
  refine ⟨hdirectory, fun p hp => ?_⟩
  rw [holds, Bool.or_eq_true] at hp ⊢
  refine hp.imp (hdirectory p) fun hfile => ?_
  rw [file?, files_insert, List.lookup_cons]
  split
  · rfl
  · exact hfile

/-- What can be followed in a tree can be followed in one that has more. -/
theorem Extends.foldlM_follow (h : t'.Extends t) {names : List String} {p q : Place}
    (hfollow : names.foldlM t.follow p = .ok q) : names.foldlM t'.follow p = .ok q := by
  induction names generalizing p with
  | nil => exact hfollow
  | cons name rest ih =>
    rw [List.foldlM_cons] at hfollow ⊢
    rcases hstep : t.follow p name with failure | next
    · rw [hstep] at hfollow
      cases hfollow
    · rw [hstep] at hfollow
      have hstep' : t'.follow p name = .ok next := by
        unfold follow at hstep
        split_ifs at hstep with hdirectory hlength hholds
        cases hstep
        have hp : t.isDirectory p = true := by simpa using hdirectory
        exact follow_eq_ok (h.isDirectory p hp) (Nat.not_lt.mp hlength) (h.holds _ hholds)
      rw [hstep']
      exact ih hfollow

/-- What is found in a tree is found in one that has more. -/
theorem Extends.find (h : t'.Extends t) {p : Place} (hfind : t.find path = .ok p) :
    t'.find path = .ok p := by
  unfold FileTree.find at hfind ⊢
  split_ifs at hfind ⊢
  exact h.foldlM_follow hfind

/-- **The other files are read as before**: the path of the new one leads elsewhere, and passes through none
of them. -/
theorem read_insert_of_ne {p : Place} (hread : t.read path' = .ok content') (hfind : t.find path' = .ok p)
    (hne : p ≠ place path) (hfile : (t.insert path content).isDirectory p = false) :
    (t.insert path content).read path' = .ok content' := by
  have hcontent : (t.insert path content).file? p = t.file? p := by
    rw [file?, files_insert, List.lookup_cons, beq_false_of_ne hne]
    rfl
  have hbefore : t.isDirectory p = false := by
    rcases hp : t.isDirectory p with _ | _
    · rfl
    · exact absurd ((extends_insert t path content).isDirectory p hp) (by simp [hfile])
  rw [read, (extends_insert t path content).find hfind]
  rw [read, hfind] at hread
  dsimp only at hread ⊢
  rw [hfile, hcontent]
  rwa [hbefore] at hread

end FileTree

end Prattle
