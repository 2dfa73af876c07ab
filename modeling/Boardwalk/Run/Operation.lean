import Boardwalk.Run.Machine

/-!
# Operations on a walker

Everything that can be done to a walker from outside, one after the other. An
operation that ends in a fault still leaves a walker, and further operations go on
from there.
-/
namespace Boardwalk

/-- Something done to a walker. -/
inductive Operation where
  /-- A move of its own, which is not recorded. -/
  | move (steps : Int64)
  /-- A turn of its own, which is not recorded. -/
  | turn (side : Side)
  | record (entry : String)
  | single (command : Command)
  | execute (program : Program)
  | run (limits : Limits) (program : Program)

/-- The walker after an operation, and the fault that ended the operation, if there is one. -/
def Operation.apply (board : Board) (walker : Walker) : Operation → Walker × Option Fault
  | .move steps =>
    match walker.advance board steps with
    | .ok moved => (moved, none)
    | .error fault => (walker, some fault)
  | .turn side => (walker.turn side, none)
  | .record entry => (walker.record entry, none)
  | .single command =>
    let progress := command.execute board walker
    (progress.machine.walker, progress.fault?)
  | .execute program =>
    let progress := program.execute board walker
    (progress.machine.walker, progress.fault?)
  | .run limits program =>
    let progress := program.run board limits walker
    (progress.machine.walker, progress.fault?)

theorem Operation.apply_move (board : Board) (walker : Walker) (steps : Int64) :
    (Operation.move steps).apply board walker =
      match walker.advance board steps with
      | .ok moved => (moved, none)
      | .error fault => (walker, some fault) := by
  -- `delta` and not `rw`: the equations of the whole function take seconds to derive.
  delta apply
  dsimp only

def Walker.after (walker : Walker) (board : Board) : List Operation → Walker
  | [] => walker
  | operation :: rest => Walker.after (operation.apply board walker).1 board rest

end Boardwalk
