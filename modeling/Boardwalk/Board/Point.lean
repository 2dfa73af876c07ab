import Boardwalk.Command.Basic
import Boardwalk.Json.Basic

/-!
# Points and headings

A point is a column and a row. Columns grow to the east and rows to the south, so
the point `(0, 0)` is the north-west corner of a board. Coordinates are signed
64-bit numbers, and a sum or product that would leave their range stops at its
nearer end.
-/
namespace Boardwalk

structure Point where
  x : Int64
  y : Int64
  deriving DecidableEq

/-- A direction to face, in clockwise order. -/
inductive Heading where
  | north
  | east
  | south
  | west
  deriving DecidableEq

namespace Point

/-- The north-west corner of every board. -/
def origin : Point := ⟨0, 0⟩

def text (point : Point) : String :=
  "(" ++ Decimal.ofInt point.x.toInt ++ ", " ++ Decimal.ofInt point.y.toInt ++ ")"

def toJson (point : Point) : Json := .arr [.int point.x.toInt, .int point.y.toInt]

end Point

namespace Heading

def next : Heading → Heading
  | .north => .east
  | .east => .south
  | .south => .west
  | .west => .north

/-- The heading after a turn: one quarter clockwise to the right, three to the left. -/
def turned (heading : Heading) : Side → Heading
  | .right => heading.next
  | .left => heading.next.next.next

/-- The step that a heading points to. -/
def delta : Heading → Point
  | .north => ⟨0, -1⟩
  | .east => ⟨1, 0⟩
  | .south => ⟨0, 1⟩
  | .west => ⟨-1, 0⟩

def word : Heading → String
  | .north => "north"
  | .east => "east"
  | .south => "south"
  | .west => "west"

def name : Heading → String
  | .north => "North"
  | .east => "East"
  | .south => "South"
  | .west => "West"

def ofName? : String → Option Heading
  | "North" => some .north
  | "East" => some .east
  | "South" => some .south
  | "West" => some .west
  | _ => none

def ofJson? (value : Json) : Option Heading := value.word?.bind ofName?

@[simp] theorem next_four (heading : Heading) : heading.next.next.next.next = heading := by
  cases heading <;> rfl

end Heading

/-- The sum of two coordinates, stopped at the ends of their range. -/
def boundedAdd (a b : Int64) : Int64 := Int64.ofIntClamp (a.toInt + b.toInt)

/-- The product of two coordinates, stopped at the ends of their range. -/
def boundedMul (a b : Int64) : Int64 := Int64.ofIntClamp (a.toInt * b.toInt)

/-- The point a number of steps along a heading. -/
def Point.along (point : Point) (heading : Heading) (steps : Int64) : Point where
  x := boundedAdd point.x (boundedMul heading.delta.x steps)
  y := boundedAdd point.y (boundedMul heading.delta.y steps)

@[simp] theorem boundedAdd_zero (a : Int64) : boundedAdd a 0 = a := by
  simp [boundedAdd]

@[simp] theorem boundedMul_zero_left (a : Int64) : boundedMul 0 a = 0 := by
  rw [boundedMul, Int64.toInt_zero, Int.zero_mul]
  rfl

@[simp] theorem boundedMul_zero_right (a : Int64) : boundedMul a 0 = 0 := by
  rw [boundedMul, Int64.toInt_zero, Int.mul_zero]
  rfl

theorem toInt_ofIntClamp (z : Int) :
    (Int64.ofIntClamp z).toInt = max Int64.minValue.toInt (min z Int64.maxValue.toInt) := by
  have ends : Int64.minValue.toInt ≤ Int64.maxValue.toInt := by decide
  rw [Int64.ofIntClamp]
  split
  · split
    · rw [Int64.toInt_ofIntLE]
      omega
    · omega
  · omega

theorem toInt_boundedAdd (a b : Int64) :
    (boundedAdd a b).toInt =
      max Int64.minValue.toInt (min (a.toInt + b.toInt) Int64.maxValue.toInt) :=
  toInt_ofIntClamp _

theorem toInt_boundedMul (a b : Int64) :
    (boundedMul a b).toInt =
      max Int64.minValue.toInt (min (a.toInt * b.toInt) Int64.maxValue.toInt) :=
  toInt_ofIntClamp _

theorem Point.eq_of_toInt_eq {a b : Point} (x : a.x.toInt = b.x.toInt)
    (y : a.y.toInt = b.y.toInt) : a = b := by
  cases a
  cases b
  cases Int64.toInt_inj.mp x
  cases Int64.toInt_inj.mp y
  rfl

/-- A heading leads along a column or along a row. -/
theorem Point.along_straight (point : Point) (heading : Heading) (steps : Int64) :
    point.x = (point.along heading steps).x ∨ point.y = (point.along heading steps).y := by
  cases heading with
  | north => exact .inl (by simp [Point.along, Heading.delta])
  | east => exact .inr (by simp [Point.along, Heading.delta])
  | south => exact .inl (by simp [Point.along, Heading.delta])
  | west => exact .inr (by simp [Point.along, Heading.delta])

end Boardwalk
