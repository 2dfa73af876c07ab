import Boardwalk.Log
import Boardwalk.Walk.Walker

/-!
# Events of a run

What happens while a program runs, in the order in which it happens.
-/
namespace Boardwalk

inductive Event where
  | started (commands : Nat) (stance : Stance)
  /-- The walker went a number of steps from one point to another. -/
  | moved (steps : Int64) (source target : Point)
  /-- A guarded loop ended because its condition held after one of its commands. -/
  | leftMidPass (condition : Condition) (passes : Nat)
  /-- A guarded loop ended because its condition held before a pass. -/
  | leftBetween (condition : Condition) (passes : Nat)
  | finished (stance : Stance) (moves steps : Nat)
  deriving DecidableEq

namespace Event

def message : Event → String
  | .started commands stance =>
    "executing " ++ Decimal.ofNat commands ++ " top-level commands from " ++ stance.text
  | .moved steps source target =>
    "move " ++ Decimal.ofInt steps.toInt ++ ": " ++ source.text ++ " -> " ++ target.text
  | .leftMidPass condition passes =>
    "RepeatUntil " ++ condition.word ++ " satisfied mid-pass after " ++ Decimal.ofNat passes
      ++ " passes"
  | .leftBetween condition passes =>
    "RepeatUntil " ++ condition.word ++ " satisfied after " ++ Decimal.ofNat passes ++ " passes"
  | .finished stance moves steps =>
    "finished at " ++ stance.text ++ " after " ++ Decimal.ofNat moves ++ " moves and "
      ++ Decimal.ofNat steps ++ " steps"

def record (event : Event) : Record :=
  match event with
  | .moved .. => ⟨.trace, "gridwalk::character", event.message⟩
  | _ => ⟨.debug, "gridwalk::interpreter", event.message⟩

end Event
end Boardwalk
