import Boardwalk.Command.Basic

/-!
# Writing programs in Lean

Each function adds one command at the end of a program, so that a program reads
in the order in which it runs: `Program.start.move 9 |>.turn .right`.
-/
namespace Boardwalk.Program

def start : Program := []

def move (program : Program) (steps : Int64) : Program := program ++ [.act (.move steps)]

def turn (program : Program) (side : Side) : Program := program ++ [.act (.turn side)]

def times (program : Program) (count : UInt32) (block : Program → Program) : Program :=
  program ++ [.loop (.counted count) (block start)]

def runUntil (program : Program) (condition : Condition) (block : Program → Program) : Program :=
  program ++ [.loop (.guarded condition) (block start)]

end Boardwalk.Program
