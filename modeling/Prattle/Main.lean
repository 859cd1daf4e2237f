import Prattle.CommandLine

/-!
# The program

The outer layer of the command line: it reads the file and the clock, and writes the report. The arguments
do not tell under which name the program was started, so the note on its usage calls it
`CommandLine.defaultProgram`.
-/

namespace Prattle.Main

open CommandLine

/-- The number of a refusal; the system gives some of them with their sign changed. -/
def refusalNumber (code : UInt32) : Nat :=
  if code < 0x80000000 then code.toNat else (-code).toNat

/-- A refusal of the system, by its number. -/
def refusal (code : UInt32) (reason : String) : ReadFailure :=
  match refusalNumber code with
  | 2 => .notFound
  | 20 => .notADirectory
  | 21 => .isADirectory
  | 36 => .nameTooLong
  | number => .refused reason.capitalize number

/-- A refusal of the system to read a file. -/
def readFailure : IO.Error → ReadFailure
  | .alreadyExists _ code reason | .otherError code reason | .resourceBusy code reason
  | .resourceVanished code reason | .unsupportedOperation code reason
  | .hardwareFault code reason | .unsatisfiedConstraints code reason
  | .illegalOperation code reason | .protocolError code reason | .timeExpired code reason
  | .interrupted _ code reason | .invalidArgument _ code reason
  | .permissionDenied _ code reason | .resourceExhausted _ code reason
  | .inappropriateType _ code reason | .noSuchThing _ code reason
  | .noFileOrDirectory _ code reason => refusal code reason
  | .unexpectedEof => .notText
  | .userError reason => .refused reason 0

/-- The bytes of a file. -/
def readFile (path : String) : IO (Except ReadFailure ByteArray) := do
  match ← (IO.FS.readBinFile path).toBaseIO with
  | .ok content => return .ok content
  | .error e => return .error (readFailure e)

/-- The work, done, and a note on the time it took. -/
def timed (work : Work) : IO ((Program × List SyntaxError) × String) := do
  let start ← IO.monoNanosNow
  let result ← IO.lazyPure work
  let stop ← IO.monoNanosNow
  return (result, "Parsed in " ++ toString (stop - start) ++ "ns")

end Prattle.Main

open Prattle in
/-- Reads the file named by the argument and prints the program in it, or what is wrong with it. -/
def main (arguments : List String) : IO UInt32 := do
  let report ← CommandLine.run Main.readFile Main.timed arguments
  IO.print report.output
  IO.eprint report.errors
  return report.status.toUInt32
