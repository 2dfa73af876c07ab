import Boardwalk.Board.Layout
import Boardwalk.Cli.Arguments
import Boardwalk.Cli.Files
import Boardwalk.Command.Metrics
import Boardwalk.Json.Printer
import Boardwalk.Release
import Boardwalk.Run.Trace

/-!
# Answers to command lines

What the tool writes and which status it ends with, given the files it may read.
Nothing here touches a file: a look-up from names to contents is handed in.
-/
namespace Boardwalk.Cli

/-- What the tool writes and how it ends. -/
structure Answer where
  status : Nat
  output : String
  errors : String
  records : List Record

/-- A task that could not be done: what was tried, and why it failed. -/
structure Failure where
  context : String
  cause : String

def Failure.text (failure : Failure) : String :=
  "Error: " ++ failure.context ++ "\n\nCaused by:\n    " ++ failure.cause ++ "\n"

namespace Answer

/-- The answer to a command line that asks for nothing. -/
def usage : Answer := ⟨2, "", "", []⟩

def ok (output : String) (records : List Record) : Answer := ⟨0, output, "", records⟩

/-- The answer of a task that failed after some output. -/
def fail (output : String) (failure : Failure) (records : List Record) : Answer :=
  ⟨1, output, failure.text, records⟩

/-- The records with the first of their lines only. -/
def headlines (answer : Answer) : List Record := answer.records.map Record.headline

/-- What is written beside the output and the first lines of the records: their further lines,
then the errors. -/
def remarks (answer : Answer) : String :=
  String.join ((answer.records.flatMap Record.moreLines).map (· ++ "\n")) ++ answer.errors

end Answer

def origin : String := "gridwalk"

def loadProgram (files : Files) (path : String) (tabWidth : Nat) :
    Except Failure Program × List Record :=
  match files path with
  | .error error => (.error ⟨"Failed to read program file: " ++ path, error.message⟩, [])
  | .ok source =>
    let reading := Reading.ofSource tabWidth source
    match reading.result with
    | .error error => (.error ⟨"Failed to parse " ++ path, error.message⟩, reading.records)
    | .ok program => (.ok program, reading.records)

/-- Reads the layout that is chosen, or takes a blank board. -/
def loadBoard (files : Files) (choice : BoardChoice) : Except Failure Board :=
  match choice.layout with
  | none => .ok (.blank choice.size)
  | some path =>
    match files path with
    | .error error => .error ⟨"Failed to read grid file: " ++ path, error.message⟩
    | .ok text =>
      match Board.ofText text with
      | .error error => .error ⟨"Invalid grid layout in " ++ path, error.message⟩
      | .ok board => .ok board

def boardRecord (board : Board) : Record :=
  let side := Decimal.ofNat board.size
  ⟨.debug, origin, "board is " ++ side ++ "x" ++ side⟩

def reportText (name : String) (board : Board) (report : Report) : String :=
  let ending (trace : Trace) : String :=
    if board.hasFinish then
      if trace.reachedFinish then "Reached the finish.\n" else "Did not reach the finish.\n"
    else ""
  "Executing " ++ name ++ ":\n"
    ++ match report.trace with
      | some trace => trace.summary ++ "\n" ++ ending trace
      | none => ""

def reportJson (name : String) (report : Report) : String :=
  (Json.obj (("program", .str name) :: report.fields)).indented ++ "\n"

def runProgram (name : String) (program : Program) (board : Board) (limits : Limits) (json : Bool)
    (before : List Record) : Answer :=
  let progress := program.run board limits .fresh
  let report := Report.ofProgress board progress
  let output := if json then reportJson name report else reportText name board report
  let records := before ++ progress.records
  match report.error with
  | some error => .fail output ⟨name ++ " stopped early", error⟩ records
  | none => .ok output records

/-- The metrics of a program, as JSON text or in words. -/
def metricsText (name : String) (program : Program) (json : Bool) : String :=
  let metrics := Metrics.ofProgram program
  if json then metrics.toJson.indented ++ "\n" else "Metrics for " ++ name ++ ":\n" ++ metrics.text

def Task.answer (files : Files) : Task → Answer
  | .version => .ok (Release.title ++ "\n") []
  | .run path choice tabWidth limits json =>
    match loadProgram files path tabWidth with
    | (.error failure, records) => .fail "" failure records
    | (.ok program, records) =>
      match loadBoard files choice with
      | .error failure => .fail "" failure records
      | .ok board =>
        runProgram path program board limits json
          (records ++ [boardRecord board, ⟨.info, origin, "running " ++ path⟩])
  | .metrics path tabWidth json =>
    match loadProgram files path tabWidth with
    | (.error failure, records) => .fail "" failure records
    | (.ok program, records) => .ok (metricsText path program json) records
  | .builtIn which .source _ _ _ => .ok which.program.source []
  | .builtIn which .metrics _ _ json => .ok (metricsText which.name which.program json) []
  | .builtIn which .run choice limits json =>
    match loadBoard files choice with
    | .error failure => .fail "" failure []
    | .ok board => runProgram which.name which.program board limits json [boardRecord board]

/-- Does what a command line asks for, and keeps the log records that it asks for. -/
def Invocation.answer (files : Files) (invocation : Invocation) : Answer :=
  let answer := invocation.task.answer files
  let level := if invocation.verbose then Level.debug else .warn
  { answer with records := Record.atLeast level answer.records }

/-- The names of the files that a task may read. -/
def Task.paths : Task → List String
  | .run path choice _ _ _ => path :: choice.layout.toList
  | .metrics path _ _ => [path]
  | .builtIn _ .run choice _ _ => choice.layout.toList
  | .builtIn .. | .version => []

def answer (files : Files) (words : List String) : Answer :=
  match Invocation.ofWords? words with
  | none => .usage
  | some invocation => invocation.answer files

end Boardwalk.Cli
