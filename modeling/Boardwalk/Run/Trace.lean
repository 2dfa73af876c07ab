import Boardwalk.Run.Machine
import Boardwalk.Source.Outline

/-!
# Traces and reports

A trace is what a run leaves behind: the histories of the walker, its last stance
and whether that is on a finish. A report adds the error of a run that failed, and
has no trace if the program never ran.
-/
namespace Boardwalk

/-- What a run leaves behind. -/
structure Trace where
  moves : Array String
  visited : Array Point
  stance : Stance
  reachedFinish : Bool
  deriving DecidableEq

namespace Trace

def capture (board : Board) (walker : Walker) : Trace where
  moves := walker.moves
  visited := walker.visited
  stance := walker.toStance
  reachedFinish := walker.onFinish board

/-- The record on one line and the last stance on a second. -/
def summary (trace : Trace) : String :=
  let record :=
    if trace.moves.isEmpty then "No moves." else ", ".intercalate trace.moves.toList ++ "."
  record ++ "\nEnd state " ++ trace.stance.text

def toJson (trace : Trace) : Json :=
  .obj [("moves", .strs trace.moves.toList),
    ("points_visited", .arr (trace.visited.toList.map Point.toJson)),
    ("position", trace.stance.position.toJson),
    ("facing", .str trace.stance.heading.name),
    ("end_state", .str trace.stance.text),
    ("reached_finish", .bool trace.reachedFinish)]

end Trace

/-- What is told of a run, or of why there was none. -/
structure Report where
  trace : Option Trace
  error : Option String

namespace Report

def failed (error : String) : Report := ⟨none, some error⟩

def ofProgress (board : Board) (progress : Progress) : Report where
  trace := some (.capture board progress.machine.walker)
  error := progress.fault?.map Fault.message

def success (report : Report) : Bool := report.error.isNone

/-- The fields of a report; what is not there has no field. -/
def fields (report : Report) : List (String × Json) :=
  [("success", .bool report.success)]
    ++ (report.trace.map fun trace => ("trace", trace.toJson)).toList
    ++ (report.error.map fun error => ("error", .str error)).toList

def toJson (report : Report) : Json := .obj report.fields

end Report

/-- Why a program text was not run to its end. -/
inductive ProgramError where
  | parse (error : ParseError)
  | run (fault : Fault)
  deriving DecidableEq

/-- The message of an error, which is that of the part that failed. -/
def ProgramError.message : ProgramError → String
  | .parse error => error.message
  | .run fault => fault.message

/-- The report of running a program with a fresh walker. -/
def Program.report (board : Board) (limits : Limits) (program : Program) : Report :=
  .ofProgress board (program.run board limits .fresh)

/-- Reads a program text and runs it with a fresh walker within the standard limits. -/
def Program.runSource (board : Board) (source : String) : Except ProgramError Trace :=
  match Program.parse source with
  | .error error => .error (.parse error)
  | .ok program =>
    match program.execute board .fresh with
    | .stopped fault _ => .error (.run fault)
    | .done machine => .ok (.capture board machine.walker)

end Boardwalk
