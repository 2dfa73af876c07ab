import Boardwalk.Proofs.JsonText
import Boardwalk.Web

/-!
# The page and the library give the same answers

A page gets its answer as JSON text, and a caller of the library gets a trace or an
error. Both come from the same parts put together anew, so they are compared here: the
text that a page gets is read back as what the library says about the same program on the
same board, down to the single fields of a trace. Log records are no part of this.
-/
namespace Boardwalk

def Heading.spelled : Heading → String × String
  | .north => ("North", "north")
  | .east => ("East", "east")
  | .south => ("South", "south")
  | .west => ("West", "west")

namespace Trace

/-- What a page is told of a trace, field by field. -/
def told (trace : Trace) : Json :=
  let x := trace.stance.position.x.toInt
  let y := trace.stance.position.y.toInt
  let (name, word) := trace.stance.heading.spelled
  .obj [
    ("moves", .arr (trace.moves.toList.map .str)),
    ("points_visited", .arr (trace.visited.toList.map fun point =>
      .arr [.int point.x.toInt, .int point.y.toInt])),
    ("position", .arr [.int x, .int y]),
    ("facing", .str name),
    ("end_state", .str
      ("(" ++ Decimal.ofInt x ++ ", " ++ Decimal.ofInt y ++ ") facing " ++ word ++ ".")),
    ("reached_finish", .bool trace.reachedFinish)]

structure TakenFrom (trace : Trace) (board : Board) (walker : Walker) : Prop where
  moves : trace.moves = walker.moves
  visited : trace.visited = walker.visited
  position : trace.stance.position = walker.position
  heading : trace.stance.heading = walker.heading
  finish : trace.reachedFinish = true ↔ board.cellAt walker.position = some .finish

theorem takenFrom_capture (board : Board) (walker : Walker) :
    (capture board walker).TakenFrom board walker where
  moves := rfl
  visited := rfl
  position := rfl
  heading := rfl
  finish := decide_eq_true_iff

theorem toJson_eq_told (trace : Trace) : trace.toJson = trace.told := by
  have stance : trace.stance.text = "(" ++ Decimal.ofInt trace.stance.position.x.toInt ++ ", " ++
      Decimal.ofInt trace.stance.position.y.toInt ++ ") facing " ++
        trace.stance.heading.spelled.2 ++ "." := by
    have words : ") facing " = ")" ++ " facing " := rfl
    rw [Stance.text, Point.text, words]
    cases trace.stance.heading <;> simp only [String.append_assoc] <;> rfl
  have facing : trace.stance.heading.name = trace.stance.heading.spelled.1 := by
    cases trace.stance.heading <;> rfl
  rw [toJson, stance, facing]
  rfl

end Trace

namespace Json

theorem plainItems_map {α : Type} {toJson : α → Json} (h : ∀ a, (toJson a).plain = true)
    (items : List α) : plainItems (items.map toJson) = true := by
  induction items with
  | nil => rfl
  | cons item items ih =>
      rw [List.map_cons, plainItems, h item, ih]
      rfl

end Json

theorem Trace.plain_toJson (trace : Trace) : trace.toJson.plain = true := by
  have moves : (Json.strs trace.moves.toList).plain = true := by
    rw [Json.strs, Json.plain]
    exact Json.plainItems_map (fun _ => rfl) _
  have visited : Json.plainItems (trace.visited.toList.map Point.toJson) = true :=
    Json.plainItems_map (fun _ => rfl) _
  simp [Trace.toJson, Json.plain, Json.plainFields, moves, visited, Point.toJson, Json.plainItems]

theorem Report.plain_toJson (report : Report) : report.toJson.plain = true := by
  obtain ⟨trace, error⟩ := report
  cases trace with
  | none => cases error <;> rfl
  | some trace =>
      have plain := trace.plain_toJson
      cases error <;> simp [Report.toJson, Report.fields, Json.plain, Json.plainFields, plain]

theorem Report.toJson_of_trace (trace : Trace) (error : Option String) :
    Report.toJson ⟨some trace, error⟩ = .obj (("success", .bool error.isNone) ::
      ("trace", trace.told) :: (error.map fun text => ("error", .str text)).toList) := by
  rw [← trace.toJson_eq_told]
  rfl

namespace Program

variable {board : Board} {source : String}

theorem runSource_eq_parse_error_iff {error : ParseError} :
    runSource board source = .error (.parse error) ↔ parse source = .error error := by
  unfold runSource
  cases parse source with
  | error other => simp
  | ok program =>
      dsimp only
      cases program.execute board .fresh <;> simp

theorem runSource_eq_ok_iff {trace : Trace} :
    runSource board source = .ok trace ↔
      ∃ program machine, parse source = .ok program ∧
        program.run board .standard .fresh = .done machine ∧
        trace = .capture board machine.walker := by
  unfold runSource
  cases parse source with
  | error error => simp
  | ok program =>
      dsimp only [execute]
      cases ran : program.run board .standard .fresh <;> simp [ran, eq_comm]

theorem runSource_eq_run_error_iff {fault : Fault} :
    runSource board source = .error (.run fault) ↔
      ∃ program machine, parse source = .ok program ∧
        program.run board .standard .fresh = .stopped fault machine := by
  unfold runSource
  cases parse source with
  | error error => simp
  | ok program =>
      dsimp only [execute]
      cases ran : program.run board .standard .fresh <;> simp [ran]

end Program

namespace Web

theorem report_of_board_error {source layout : String} {error : BoardError}
    (h : board layout = .error error) : (report source layout).1 = .failed error.message := by
  unfold report
  rw [h]

theorem report_of_parse_error {source layout : String} {ground : Board} {error : ParseError}
    (h : board layout = .ok ground) (parsed : Program.parse source = .error error) :
    (report source layout).1 = .failed error.message := by
  have result : (Reading.ofSource Program.indentWidth source).result = .error error := parsed
  unfold report
  simp only [h, result]

theorem report_of_run {source layout : String} {ground : Board} {program : Program}
    (h : board layout = .ok ground) (parsed : Program.parse source = .ok program) :
    (report source layout).1 = program.report ground .standard := by
  have result : (Reading.ofSource Program.indentWidth source).result = .ok program := parsed
  unfold report
  simp only [h, result]
  rfl

/-- The answer to a page is JSON text, and read back it is the error of the layout, the error of the
program text, the trace of a run that went through, or the error of a run that failed with the
trace of the walker it left. A trace is what that walker did and was at, and where it stands. -/
theorem run_agrees_with_runSource (source layout : String) :
    let ground : Except BoardError Board :=
      if Text.allBlank layout.toList then .ok (.blank 10) else Board.ofText layout
    ∃ answer, (run source layout).1 = answer.compact ∧
      Json.read? (run source layout).1 = some answer ∧
      (∀ error, ground = .error error →
        answer = .obj [("success", .bool false), ("error", .str error.message)]) ∧
      ∀ board, ground = .ok board →
        (∀ error, Program.runSource board source = .error (.parse error) →
          answer = .obj [("success", .bool false), ("error", .str error.message)]) ∧
        (∀ trace, Program.runSource board source = .ok trace →
          ∃ program machine, Program.parse source = .ok program ∧
            program.run board .standard .fresh = .done machine ∧
            trace.TakenFrom board machine.walker ∧
            answer = .obj [("success", .bool true), ("trace", trace.told)]) ∧
        ∀ fault, Program.runSource board source = .error (.run fault) →
          ∃ program machine trace, Program.parse source = .ok program ∧
            program.run board .standard .fresh = .stopped fault machine ∧
            trace.TakenFrom board machine.walker ∧
            (program.report board .standard).trace = some trace ∧
            answer = .obj [("success", .bool false), ("trace", trace.told),
              ("error", .str fault.message)] := by
  intro ground
  have loaded : board layout = ground := rfl
  refine ⟨(report source layout).1.toJson, rfl, Json.read?_compact (Report.plain_toJson _), ?_, ?_⟩
  · intro error failed
    rw [report_of_board_error (loaded.trans failed)]
    rfl
  · intro board placed
    have onBoard := loaded.trans placed
    refine ⟨?_, ?_, ?_⟩
    · intro error failed
      rw [report_of_parse_error onBoard (Program.runSource_eq_parse_error_iff.mp failed)]
      rfl
    · intro trace passed
      obtain ⟨program, machine, parsed, done, rfl⟩ := Program.runSource_eq_ok_iff.mp passed
      have report : program.report board .standard =
          ⟨some (.capture board machine.walker), none⟩ := by
        rw [Program.report, done]
        rfl
      refine ⟨program, machine, parsed, done, Trace.takenFrom_capture board machine.walker, ?_⟩
      rw [report_of_run onBoard parsed, report, Report.toJson_of_trace]
      rfl
    · intro fault failed
      obtain ⟨program, machine, parsed, stopped⟩ := Program.runSource_eq_run_error_iff.mp failed
      have report : program.report board .standard =
          ⟨some (.capture board machine.walker), some fault.message⟩ := by
        rw [Program.report, stopped]
        rfl
      refine ⟨program, machine, _, parsed, stopped, Trace.takenFrom_capture board machine.walker,
        congrArg Report.trace report, ?_⟩
      rw [report_of_run onBoard parsed, report, Report.toJson_of_trace]
      rfl

example : (run "Turn \"\\" "").1 =
    "\x7b\"success\":false,\"error\":\"Invalid argument '\\\"\\\\' for Turn at line 1\"\x7d" := by
  decide +kernel

example : (run "Move 1\nMove 1\nMove 5" "oo+\nooo\nooo\n").1 =
    "\x7b\"success\":false,\"trace\":\x7b\"moves\":[\"Move 1\"]," ++
      "\"points_visited\":[[0,0],[1,0]],\"position\":[1,0],\"facing\":\"East\"," ++
      "\"end_state\":\"(1, 0) facing east.\",\"reached_finish\":false\x7d," ++
      "\"error\":\"Cannot move to (2, 0): there is a wall. " ++
      "Character is at (1, 0) facing east.\"\x7d" := by
  decide +kernel

end Web
end Boardwalk
