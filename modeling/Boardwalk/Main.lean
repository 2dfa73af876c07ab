import Boardwalk.Cli.Answer

/-!
# The command line tool

Reads the files that a command line names, answers it, and writes the answer.
-/
namespace Boardwalk.Cli

/-- The error of a number that the system gives. -/
def FileError.ofNumber? : Nat → Option FileError
  | 2 => some .missing
  | 20 => some .notDirectory
  | 21 => some .directory
  | 36 => some .nameTooLong
  | _ => none

/-- The number that the system gives for an error, which is reported with either sign. -/
def numberOf? (error : IO.Error) : Option Nat :=
  match error with
  | .noFileOrDirectory _ code _ | .inappropriateType _ code _ => some code.toInt32.toInt.natAbs
  | .invalidArgument _ code _ | .otherError code _ => some code.toInt32.toInt.natAbs
  | _ => none

def readFile (path : String) : IO (Except FileError String) := do
  try
    return textOfBytes (← IO.FS.readBinFile path)
  catch error =>
    match (numberOf? error).bind FileError.ofNumber? with
    | some reason => return .error reason
    | none => return .error (.other (toString error))

def logLines (record : Record) : List String :=
  ("[" ++ record.level.name ++ " " ++ record.origin ++ "] " ++ record.headline.message)
    :: record.moreLines

end Boardwalk.Cli

open Boardwalk Cli in
def main (words : List String) : IO UInt32 := do
  let some invocation := Invocation.ofWords? words
    | IO.eprintln ("Usage: " ++ Release.name ++ " [OPTIONS] <COMMAND>")
      return 2
  let mut contents : List (String × Except FileError String) := []
  for path in invocation.task.paths do
    contents := (path, ← readFile path) :: contents
  let found := contents
  let files : Files := fun path => (found.lookup path).getD (.error .missing)
  let answer := invocation.answer files
  for record in answer.records do
    for line in logLines record do
      IO.eprintln line
  IO.print answer.output
  IO.eprint answer.errors
  return UInt32.ofNat answer.status
