import Boardwalk.Command.Basic
import Boardwalk.Json.Basic

/-!
# Metrics of a program

Counts taken from the program alone, without running it: a block counts once,
however often its loop would run it.
-/
namespace Boardwalk

structure Metrics where
  /-- Commands at any depth. -/
  commands : Nat
  /-- Those of them that are loops. -/
  loops : Nat
  /-- The greatest number of loops inside one another. -/
  nesting : Nat
  deriving DecidableEq

namespace Metrics

def zero : Metrics := ⟨0, 0, 0⟩

/-- The metrics of two programs one after the other. -/
def append (a b : Metrics) : Metrics :=
  ⟨a.commands + b.commands, a.loops + b.loops, max a.nesting b.nesting⟩

/-- The metrics of a loop, given those of its block. -/
def enclose (block : Metrics) : Metrics := ⟨block.commands + 1, block.loops + 1, block.nesting + 1⟩

mutual

def ofCommand : Command → Metrics
  | .act _ => ⟨1, 0, 0⟩
  | .loop _ body => enclose (ofProgram body)

def ofProgram : List Command → Metrics
  | [] => zero
  | command :: rest => append (ofCommand command) (ofProgram rest)

end

def text (metrics : Metrics) : String :=
  "Commands: " ++ Decimal.ofNat metrics.commands ++ "\nRepeat Commands: "
    ++ Decimal.ofNat metrics.loops ++ "\nMax Nesting Depth: " ++ Decimal.ofNat metrics.nesting ++ "\n"

def toJson (metrics : Metrics) : Json :=
  .obj [("total_commands", .nat metrics.commands), ("repeat_count", .nat metrics.loops),
    ("max_nesting_depth", .nat metrics.nesting)]

/-- Metrics add up over programs that follow one another; nesting is the greater of the two. -/
theorem ofProgram_append (a b : Program) :
    ofProgram (a ++ b) = append (ofProgram a) (ofProgram b) := by
  induction a with
  | nil => simp [ofProgram, append, zero]
  | cons command a ih => simp [ofProgram, ih, append, Nat.add_assoc, Nat.max_assoc]

end Metrics
end Boardwalk
