import Boardwalk.Text.Decimal
import Boardwalk.Text.Letters

/-!
# Commands

A program is a list of commands. A command is either an action, which the walker
carries out at once, or a loop over a block of commands. A loop runs a counted
number of times or until a condition holds one step ahead of the walker.

What stands on one line of program text is the header of a command: the action
itself, or the loop without its block.
-/
namespace Boardwalk

inductive Side where
  | left
  | right
  deriving DecidableEq

/-- A condition on the cell one step ahead. -/
inductive Condition where
  | wallAhead
  | gridEdge
  deriving DecidableEq

/-- What a walker does at once. A negative number of steps goes backwards. -/
inductive Action where
  | move (steps : Int64)
  | turn (side : Side)
  deriving DecidableEq

/-- How often a block is run. -/
inductive Loop where
  | counted (times : UInt32)
  | guarded (condition : Condition)
  deriving DecidableEq

/-- What one line of program text says. -/
inductive Header where
  | act (action : Action)
  | loop (how : Loop)
  deriving DecidableEq

/-- An action, or a loop over a block of commands. -/
inductive Command where
  | act (action : Action)
  | loop (how : Loop) (body : List Command)

/-- A list of commands, carried out in order. -/
abbrev Program := List Command

/-- A word that names nothing of the kind asked for. -/
inductive NameError where
  | side (word : String)
  | condition (word : String)
  | level (word : String)
  deriving DecidableEq

def NameError.message : NameError → String
  | .side word => "unknown side '" ++ word ++ "'"
  | .condition word => "unknown condition '" ++ word ++ "'"
  | .level word => "invalid example choice '" ++ word ++ "', expected basic, advanced or expert"

def Side.word : Side → String
  | .left => "left"
  | .right => "right"

def Side.ofLetters? (letters : List Char) : Option Side :=
  if Text.sameLetters letters Side.left.word.toList then some .left
  else if Text.sameLetters letters Side.right.word.toList then some .right
  else none

def Side.ofWord (word : String) : Except NameError Side :=
  match Side.ofLetters? word.toList with
  | some side => .ok side
  | none => .error (.side word)

def Condition.word : Condition → String
  | .wallAhead => "WallAhead"
  | .gridEdge => "GridEdge"

def Condition.ofLetters? (letters : List Char) : Option Condition :=
  if Text.sameLetters letters Condition.wallAhead.word.toList then some .wallAhead
  else if Text.sameLetters letters Condition.gridEdge.word.toList then some .gridEdge
  else none

def Condition.ofWord (word : String) : Except NameError Condition :=
  match Condition.ofLetters? word.toList with
  | some condition => .ok condition
  | none => .error (.condition word)

/-- An action as it stands in program text and in the record of a walk. -/
def Action.text : Action → String
  | .move steps => "Move " ++ Decimal.ofInt steps.toInt
  | .turn side => "Turn " ++ side.word

/-- A loop as it stands in program text, without its block. -/
def Loop.text : Loop → String
  | .counted times => "Repeat " ++ Decimal.ofNat times.toNat
  | .guarded condition => "RepeatUntil " ++ condition.word

def Header.text : Header → String
  | .act action => action.text
  | .loop how => how.text

def Header.isLoop : Header → Bool
  | .act _ => false
  | .loop _ => true

namespace Command

def header : Command → Header
  | .act action => .act action
  | .loop how _ => .loop how

/-- The block of a loop; an action has none. -/
def body : Command → Program
  | .act _ => []
  | .loop _ body => body

def isLoop (command : Command) : Bool := command.header.isLoop

mutual

def decEq : (a b : Command) → Decidable (a = b)
  | .act a, .act b => decidable_of_iff (a = b) (by simp)
  | .loop a as, .loop b bs =>
    have := decEqBlock as bs
    decidable_of_iff (a = b ∧ as = bs) (by simp)
  | .act _, .loop _ _ => isFalse (by simp)
  | .loop _ _, .act _ => isFalse (by simp)

def decEqBlock : (as bs : List Command) → Decidable (as = bs)
  | [], [] => isTrue rfl
  | a :: as, b :: bs =>
    have := decEq a b
    have := decEqBlock as bs
    decidable_of_iff (a = b ∧ as = bs) (by simp)
  | [], _ :: _ => isFalse (by simp)
  | _ :: _, [] => isFalse (by simp)

end

instance : DecidableEq Command := decEq

@[simp] theorem body_loop (how : Loop) (body : Program) : (Command.loop how body).body = body :=
  rfl

@[simp] theorem body_act (action : Action) : (Command.act action).body = [] := rfl

end Command

@[simp] theorem Side.ofLetters?_word (side : Side) : Side.ofLetters? side.word.toList = some side := by
  cases side <;> decide

@[simp] theorem Condition.ofLetters?_word (condition : Condition) :
    Condition.ofLetters? condition.word.toList = some condition := by
  cases condition <;> decide

end Boardwalk
