import Boardwalk.Board.Basic

/-!
# Walkers

A walker stands on a board and keeps two histories: the record of what it did, in
words, and the points it was at. A move is checked against the board before
anything changes, so a move that fails leaves the walker as it was. A step that
cannot be taken gives a fault, which keeps the stance of the walker at that moment.
-/
namespace Boardwalk

/-- Where a walker stands and which way it faces. -/
structure Stance where
  position : Point
  heading : Heading
  deriving DecidableEq

def Stance.text (stance : Stance) : String :=
  stance.position.text ++ " facing " ++ stance.heading.word ++ "."

/-- What stops a run. -/
inductive Cause where
  | offBoard (target : Point)
  | wall (target : Point)
  /-- A guarded loop made as many passes as it may. -/
  | passLimit (condition : Condition) (limit : Nat)
  /-- The run took as many steps as it may. -/
  | stepLimit (limit : Nat)
  deriving DecidableEq

/-- The first sentence of the message of a fault. -/
def Cause.text : Cause → String
  | .offBoard target => "Cannot move to " ++ target.text ++ ": outside the grid."
  | .wall target => "Cannot move to " ++ target.text ++ ": there is a wall."
  | .passLimit condition limit =>
    "RepeatUntil " ++ condition.word ++ " did not finish within " ++ Decimal.ofNat limit
      ++ " iterations."
  | .stepLimit limit => "Program did not finish within " ++ Decimal.ofNat limit ++ " steps."

/-- What stopped a run, and the stance in which it did. -/
structure Fault where
  cause : Cause
  stance : Stance
  deriving DecidableEq

def Fault.message (fault : Fault) : String :=
  fault.cause.text ++ " Character is at " ++ fault.stance.text

/-- A stance together with its history. -/
structure Walker extends Stance where
  /-- What the walker did, in words, oldest first. -/
  moves : Array String
  /-- The points the walker was at, oldest first. -/
  visited : Array Point
  deriving DecidableEq

namespace Walker

/-- A walker that has done nothing: it stands in the corner and faces east. -/
def fresh : Walker where
  position := .origin
  heading := .east
  moves := #[]
  visited := #[.origin]

/-- The point a number of steps ahead; behind, if the number is negative. -/
def ahead (walker : Walker) (steps : Int64) : Point := walker.position.along walker.heading steps

/-- What keeps a walker from a point, if anything does. -/
def obstacle? (board : Board) (target : Point) : Option Cause :=
  if board.isOutside target then some (.offBoard target)
  else if board.isWall target then some (.wall target)
  else none

def goTo (walker : Walker) (target : Point) : Walker :=
  match walker with
  | ⟨⟨_, heading⟩, moves, visited⟩ => ⟨⟨target, heading⟩, moves, visited.push target⟩

/-- The fault of going a number of steps along the heading, if there is one. Only the last
point is looked at. -/
def blocked? (walker : Walker) (board : Board) (steps : Int64) : Option Fault :=
  match obstacle? board (walker.ahead steps) with
  | some cause => some ⟨cause, walker.toStance⟩
  | none => none

/-- Goes a number of steps along the heading at once. -/
def advance (walker : Walker) (board : Board) (steps : Int64) : Except Fault Walker :=
  match walker.blocked? board steps with
  | some fault => .error fault
  | none => .ok (walker.goTo (walker.ahead steps))

def turn (walker : Walker) (side : Side) : Walker :=
  match walker with
  | ⟨⟨position, heading⟩, moves, visited⟩ => ⟨⟨position, heading.turned side⟩, moves, visited⟩

def record (walker : Walker) (entry : String) : Walker :=
  match walker with
  | ⟨stance, moves, visited⟩ => ⟨stance, moves.push entry, visited⟩

def onFinish (walker : Walker) (board : Board) : Bool := board.isFinish walker.position

/-- Whether a condition holds one step ahead. -/
def sees (walker : Walker) (board : Board) : Condition → Bool
  | .wallAhead => board.isWall (walker.ahead 1)
  | .gridEdge => board.isOutside (walker.ahead 1)

@[simp] theorem moves_record (walker : Walker) (entry : String) :
    (walker.record entry).moves = walker.moves.push entry := rfl

@[simp] theorem toStance_record (walker : Walker) (entry : String) :
    (walker.record entry).toStance = walker.toStance := rfl

@[simp] theorem visited_record (walker : Walker) (entry : String) :
    (walker.record entry).visited = walker.visited := rfl

@[simp] theorem moves_turn (walker : Walker) (side : Side) :
    (walker.turn side).moves = walker.moves := rfl

@[simp] theorem visited_turn (walker : Walker) (side : Side) :
    (walker.turn side).visited = walker.visited := rfl

@[simp] theorem position_goTo (walker : Walker) (target : Point) :
    (walker.goTo target).position = target := rfl

@[simp] theorem visited_goTo (walker : Walker) (target : Point) :
    (walker.goTo target).visited = walker.visited.push target := rfl

@[simp] theorem moves_goTo (walker : Walker) (target : Point) :
    (walker.goTo target).moves = walker.moves := rfl

end Walker
end Boardwalk
