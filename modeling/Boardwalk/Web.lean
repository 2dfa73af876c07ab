import Boardwalk.Board.Layout
import Boardwalk.Command.Metrics
import Boardwalk.Json.Printer
import Boardwalk.Release
import Boardwalk.Run.Trace

/-!
# Entry points for a page

Each takes plain texts and gives JSON text back, so that a page needs nothing else
to run a program. An error is part of the answer.
-/
namespace Boardwalk.Web

def origin : String := "gridwalk::wasm"

/-- The side of the board when a page gives no layout. -/
def blankSize : Nat := 10

/-- The board of a layout; a layout that is blank stands for a blank board. -/
def board (layout : String) : Except BoardError Board :=
  if Text.allBlank layout.toList then .ok (.blank blankSize) else Board.ofText layout

/-- The report of a program text on a layout, and the log records. An error in the layout
counts before one in the program text, but the text is read in any case. -/
def report (source layout : String) : Report × List Record :=
  let reading := Reading.ofSource Program.indentWidth source
  match board layout, reading.result with
  | .error error, _ => (.failed error.message, reading.records)
  | .ok _, .error error => (.failed error.message, reading.records)
  | .ok board, .ok program =>
    let progress := program.run board .standard .fresh
    (.ofProgress board progress, reading.records ++ progress.records)

/-- The record of a report that has an error. -/
def complaint (report : Report) : List Record :=
  (report.error.map fun error => ⟨.warn, origin, "run failed: " ++ error⟩).toList

/-- Runs a program text on a layout. Gives the JSON text of the report and the log records. -/
def run (source layout : String) : String × List Record :=
  let (report, records) := report source layout
  (report.toJson.compact, records ++ complaint report)

def metrics (source : String) : String :=
  let answer : Json :=
    match Program.parse source with
    | .ok program => .obj [("success", .bool true), ("metrics", (Metrics.ofProgram program).toJson)]
    | .error error => .obj [("success", .bool false), ("error", .str error.message)]
  answer.compact

def version : String := Release.version

/-- The log records of a page that starts. -/
def start : List Record := [⟨.info, origin, Release.title ++ " ready"⟩]

end Boardwalk.Web
