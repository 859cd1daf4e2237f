import Prattle.Diagnostic
import Prattle.FileTree
import Prattle.Parser

/-!
# The command line

The program takes the path of one file, and prints the program in it or what is wrong with it.
`CommandLine.run` is all of it but the reading of the file and of the clock, which are given to it.

| status | meaning |
|---|---|
| 0 | the program is on the output |
| 1 | there are errors, each with its diagnostic |
| 2 | there is not one argument, or its file cannot be read |
-/

namespace Prattle.CommandLine

/-- What a run of the program leaves behind. -/
structure Report where
  /-- The exit status. -/
  status : UInt8
  /-- The text on the standard output. -/
  output : String
  /-- The text on the standard error. -/
  errors : String
  deriving DecidableEq, Inhabited

/-- The name that the program has where it is not known under which one it was started. -/
def defaultProgram : String := "frontend"

/-- The report of a run without exactly one argument, by a program that was started under the given
name. -/
def usage (program : String) : Report :=
  ⟨2, "", "usage: " ++ program ++ " <file>\n"⟩

/-- The report of a run whose file cannot be read. -/
def unreadable (path : String) (failure : ReadFailure) : Report :=
  ⟨2, "", "Failed to read " ++ path ++ ": " ++ failure.message ++ "\n"⟩

/-- The report about a text that was read. The first line on the standard error is a note on the
time it took. -/
def report (text note : String) (program : Program) (errors : List SyntaxError) : Report :=
  if errors.isEmpty then ⟨0, program.render ++ "\n", note ++ "\n"⟩
  else
    ⟨1, "", note ++ "\n" ++ String.join (errors.map (·.diagnostic text)) ++
      toString errors.length ++ " error(s)\n"⟩

/-- The label of a file is the last name of its path. -/
def label (path : String) : String :=
  (FileTree.names path).getLast?.getD path

/-- The text that a file holds. -/
def decode (content : ByteArray) : Except ReadFailure String :=
  (String.fromUTF8? content).elim (.error .notText) .ok

/-- The work on a text, put off until its time is taken. -/
abbrev Work : Type := Unit → Program × List SyntaxError

/-- A run of the program with the given arguments, the name it was started under not among them. `read`
fetches a file, `timed` does the work and gives a note on the time it took. -/
def run {m : Type → Type} [Monad m] (read : String → m (Except ReadFailure ByteArray))
    (timed : Work → m ((Program × List SyntaxError) × String)) (arguments : List String)
    (program : String := defaultProgram) : m Report := do
  match arguments with
  | [path] =>
    match (← read path).bind decode with
    | .error failure => return unreadable path failure
    | .ok text =>
      let ((statements, errors), note) ← timed fun _ => parse text (some (label path))
      return report text note statements errors
  | _ => return usage program

end Prattle.CommandLine
