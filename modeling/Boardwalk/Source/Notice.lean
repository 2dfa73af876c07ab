import Boardwalk.Log
import Boardwalk.Text.Decimal

/-!
# Notices

What is worth saying about a program text while it is read, besides its error.
-/
namespace Boardwalk

/-- A remark made while a program text is read. -/
inductive Notice where
  /-- Reading starts on a number of lines. -/
  | reading (lines : Nat)
  /-- The counted loop of a line has the count zero. -/
  | neverRuns (line : Nat)
  | emptyBlock (header : String) (line : Nat)
  /-- Reading ended well with a number of commands at depth zero. -/
  | finished (commands : Nat)
  deriving DecidableEq

namespace Notice

def isWarning : Notice → Bool
  | .neverRuns _ | .emptyBlock _ _ => true
  | .reading _ | .finished _ => false

def message : Notice → String
  | .reading lines => "parsing " ++ Decimal.ofNat lines ++ " program lines"
  | .neverRuns line => "Repeat 0 at line " ++ Decimal.ofNat line ++ " never runs its block"
  | .emptyBlock header line => "empty block after '" ++ header ++ "' at line " ++ Decimal.ofNat line
  | .finished commands => "parsed " ++ Decimal.ofNat commands ++ " top-level commands"

def record (notice : Notice) : Record where
  level := if notice.isWarning then .warn else .debug
  origin := "gridwalk"
  message := notice.message

end Notice
end Boardwalk
