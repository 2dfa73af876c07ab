import Boardwalk.Command.Builder

/-!
# Built-in programs

Three programs of growing size, each of which stays on a blank board of side ten.
-/
namespace Boardwalk

inductive Example where
  | basic
  | advanced
  | expert
  deriving DecidableEq

namespace Example

def name : Example → String
  | .basic => "Basic"
  | .advanced => "Advanced"
  | .expert => "Expert"

/-- The built-in program that a name or number stands for, ignoring case. -/
def ofWord (word : String) : Except NameError Example :=
  let letters := Text.lowered word.toList
  if letters = "1".toList ∨ letters = "basic".toList then .ok .basic
  else if letters = "2".toList ∨ letters = "advanced".toList then .ok .advanced
  else if letters = "3".toList ∨ letters = "expert".toList then .ok .expert
  else .error (.level word)

def program : Example → Program
  | .basic =>
    Program.start.move 9 |>.turn .right |>.move 9 |>.turn .right |>.move 9 |>.turn .right
      |>.move 9 |>.turn .right
  | .advanced => Program.start.times 4 fun block => block.move 9 |>.turn .right
  | .expert =>
    Program.start.move 5 |>.turn .left |>.turn .left |>.move 3 |>.turn .right
      |>.times 3 (fun block =>
        block.move (-1) |>.turn .right |>.times 5 fun inner => inner.move 1)
      |>.turn .left

end Example
end Boardwalk
