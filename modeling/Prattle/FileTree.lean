/-!
# File trees

A `FileTree` is what is known of the files around a directory. `FileTree.insert` enters a file, and
`FileTree.read` follows a path to the bytes of a file, or says why there are none: a `ReadFailure`.

A path is a list of names, and each name leads from a directory to a place (`Place.enter`): empty
names and `.` stay in the directory, `..` leaves it, any other name is looked up in it. So even the
names that look nothing up need a directory to stand in, and a file has no name after it.

* Inserting a file makes all directories on the way, those that the path leaves again among them.
* Reading follows a path name by name, and the first name that leads nowhere decides the failure.
-/

namespace Prattle

/-- Why the text of a file could not be read. -/
inductive ReadFailure where
  /-- There is nothing of the name. -/
  | notFound
  /-- A name is looked up in a file. -/
  | notADirectory
  /-- The path leads to a directory. -/
  | isADirectory
  /-- The path, or a name in it, is longer than any can be. -/
  | nameTooLong
  /-- The bytes are not UTF-8. -/
  | notText
  /-- The system refused, for a reason and with a number of its own. -/
  | refused (reason : String) (number : Nat)
  deriving DecidableEq, Inhabited

namespace ReadFailure

/-- A reason that the operating system gives, with its number. -/
def systemMessage (reason : String) (number : Nat) : String :=
  reason ++ " (os error " ++ toString number ++ ")"

/-- The failure in words. -/
def message : ReadFailure → String
  | notFound => systemMessage "No such file or directory" 2
  | notADirectory => systemMessage "Not a directory" 20
  | isADirectory => systemMessage "Is a directory" 21
  | nameTooLong => systemMessage "File name too long" 36
  | notText => "stream did not contain valid UTF-8"
  | refused reason number => systemMessage reason number

end ReadFailure

/-! ### Places -/

/-- A directory that exists in any case. Which of them lies in which is not known, so places counted
from different ones are different. -/
inductive Origin where
  /-- The directory that holds all others. -/
  | root
  /-- The directory so many levels above the one that relative paths start in. -/
  | above (levels : Nat)
  deriving DecidableEq, Inhabited

/-- A place where a file or a directory may be. -/
structure Place where
  /-- The directory that the place is counted from. -/
  origin : Origin
  /-- The names that lead to it from there, the innermost first. -/
  names : List String
  deriving DecidableEq, Inhabited

namespace Place

/-- The directory around a place. The root is its own. -/
def parent : Place → Place
  | ⟨origin, _ :: outer⟩ => ⟨origin, outer⟩
  | ⟨.root, []⟩ => ⟨.root, []⟩
  | ⟨.above levels, []⟩ => ⟨.above (levels + 1), []⟩

/-- The place that a name leads to from a directory. -/
def enter (place : Place) (name : String) : Place :=
  if name = "" ∨ name = "." then place
  else if name = ".." then place.parent
  else { place with names := name :: place.names }

/-- The place with each of the places before it that names lead through. -/
def way (place : Place) : List String → List Place
  | [] => [place]
  | name :: rest => place :: (place.enter name).way rest

end Place

/-- Directories and the files in them. -/
structure FileTree where
  /-- The directories, apart from the origins. -/
  directories : List Place
  /-- The files with their bytes. Of two at one place the first one counts. -/
  files : List (Place × ByteArray)

namespace FileTree

/-- The names that make up a path. -/
def names (path : String) : List String :=
  path.splitOn "/"

/-- Where a path starts: at the root if it begins with `/`. -/
def start (path : String) : Place :=
  ⟨if path.startsWith "/" then .root else .above 0, []⟩

/-- The tree without files. -/
def empty : FileTree :=
  ⟨[], []⟩

/-- The tree with a file at the end of a path, in place of any other there, and with the directories
on the way to it. -/
def insert (t : FileTree) (path : String) (content : ByteArray) : FileTree :=
  let way := (start path).way (names path)
  ⟨way.dropLast ++ t.directories, (way.getLastD (start path), content) :: t.files⟩

/-- The tree into which the given files are inserted, one after the other. -/
def ofFiles (files : List (String × ByteArray)) : FileTree :=
  files.foldl (fun t (path, content) => t.insert path content) empty

/-! ### Following paths -/

/-- The most bytes that a name may have. -/
def maxNameLength : Nat := 255

/-- The most bytes that a path may have. -/
def maxPathLength : Nat := 4095

/-- The file at a place. -/
def file? (t : FileTree) (place : Place) : Option ByteArray :=
  t.files.lookup place

/-- Whether a place is a directory. -/
def isDirectory (t : FileTree) (place : Place) : Bool :=
  place.names.isEmpty || t.directories.contains place

/-- Whether anything is at a place. -/
def holds (t : FileTree) (place : Place) : Bool :=
  t.isDirectory place || (t.file? place).isSome

/-- The place that a name leads to, if something is there. -/
def follow (t : FileTree) (place : Place) (name : String) : Except ReadFailure Place :=
  if t.isDirectory place = false then .error .notADirectory
  else if maxNameLength < name.utf8ByteSize then .error .nameTooLong
  else if t.holds (place.enter name) then .ok (place.enter name)
  else .error .notFound

/-- The place that a path leads to, if something is there. The empty path leads nowhere. -/
def find (t : FileTree) (path : String) : Except ReadFailure Place :=
  if path = "" then .error .notFound
  else if maxPathLength < path.utf8ByteSize then .error .nameTooLong
  else (names path).foldlM t.follow (start path)

/-- The bytes of the file that a path leads to. -/
def read (t : FileTree) (path : String) : Except ReadFailure ByteArray :=
  match t.find path with
  | .error e => .error e
  | .ok place =>
    if t.isDirectory place then .error .isADirectory
    else (t.file? place).elim (.error .notFound) .ok

end FileTree

end Prattle
