import Boardwalk.Board.Point

/-!
# Boards

A board is a square of cells, kept row by row from the north. Asked about a point
outside the square, it answers that there is no cell, and that counts as a wall.
-/
namespace Boardwalk

inductive Cell where
  | empty
  | wall
  | finish
  deriving DecidableEq

structure Board where
  size : Nat
  /-- The cells row by row. -/
  cells : Array Cell
  cells_size : cells.size = size * size

/-- Why a layout is no board. -/
inductive BoardError where
  | empty
  /-- A row is not as long as there are rows. -/
  | notSquare (rows columns : Nat)
  /-- No cell is written so. -/
  | invalidCell (char : Char) (line column : Nat)
  deriving DecidableEq

def BoardError.message : BoardError → String
  | .empty => "Grid layout is empty"
  | .notSquare rows columns =>
    "Grid must be square, got " ++ Decimal.ofNat rows ++ " rows and " ++ Decimal.ofNat columns
      ++ " columns"
  | .invalidCell char line column =>
    "Invalid character '" ++ String.singleton char ++ "' at line " ++ Decimal.ofNat line
      ++ ", column " ++ Decimal.ofNat column

namespace Board

/-- The board of a size that has neither walls nor a finish. -/
def blank (size : Nat) : Board where
  size := size
  cells := Array.replicate (size * size) .empty
  cells_size := Array.size_replicate

theorem length_flatten_of_length_eq {rows : List (List Cell)} {width : Nat}
    (h : ∀ row ∈ rows, row.length = width) : rows.flatten.length = rows.length * width := by
  induction rows with
  | nil => simp
  | cons row rows ih =>
    have head : row.length = width := h row List.mem_cons_self
    have tail := ih fun r hr => h r (List.mem_cons_of_mem _ hr)
    rw [List.flatten_cons, List.length_append, head, tail, List.length_cons, Nat.succ_mul]
    omega

/-- The board of a list of rows, which all have to be as long as the list. -/
def ofRows (rows : List (List Cell)) : Except BoardError Board :=
  if rows.isEmpty then .error .empty
  else
    match found : rows.find? fun row => row.length != rows.length with
    | some row => .error (.notSquare rows.length row.length)
    | none => .ok {
        size := rows.length
        cells := rows.flatten.toArray
        cells_size := by
          have square : ∀ row ∈ rows, row.length = rows.length := by
            simpa using List.find?_eq_none.1 found
          simpa using length_flatten_of_length_eq square }

/-- Where the cell of a point is kept, if the point is on the board. -/
def slot? (board : Board) (point : Point) : Option Nat :=
  let x := point.x.toInt
  let y := point.y.toInt
  if 0 ≤ x ∧ x < board.size ∧ 0 ≤ y ∧ y < board.size then
    some (y.toNat * board.size + x.toNat)
  else none

def cellAt (board : Board) (point : Point) : Option Cell :=
  match board.slot? point with
  | some slot => board.cells[slot]?
  | none => none

def isOutside (board : Board) (point : Point) : Bool := (board.slot? point).isNone

/-- Whether a point holds a wall; off the board there are only walls. -/
def isWall (board : Board) (point : Point) : Bool :=
  match board.cellAt point with
  | some cell => cell = .wall
  | none => true

def isFinish (board : Board) (point : Point) : Bool := board.cellAt point = some .finish

def hasFinish (board : Board) : Bool := board.cells.contains .finish

/-- The cells of a row, counted from the north. -/
def row (board : Board) (y : Nat) : List Cell :=
  (board.cells.extract (y * board.size) ((y + 1) * board.size)).toList

def rows (board : Board) : List (List Cell) := (List.range board.size).map board.row

/-- The slot of a point on the board is one of the board's cells. -/
theorem lt_size_of_slot? {board : Board} {point : Point} {slot : Nat}
    (h : board.slot? point = some slot) : slot < board.cells.size := by
  simp only [slot?] at h
  split at h
  case isFalse => simp at h
  case isTrue inside =>
    obtain ⟨x0, x1, y0, y1⟩ := inside
    have hx : point.x.toInt.toNat < board.size := by omega
    have hy : point.y.toInt.toNat < board.size := by omega
    rw [← Option.some.inj h, board.cells_size]
    calc point.y.toInt.toNat * board.size + point.x.toInt.toNat
        < point.y.toInt.toNat * board.size + board.size := Nat.add_lt_add_left hx _
      _ = (point.y.toInt.toNat + 1) * board.size := (Nat.succ_mul _ _).symm
      _ ≤ board.size * board.size := Nat.mul_le_mul_right _ hy

theorem isOutside_eq_false_iff {board : Board} {point : Point} :
    board.isOutside point = false ↔ 0 ≤ point.x.toInt ∧ point.x.toInt < board.size ∧
      0 ≤ point.y.toInt ∧ point.y.toInt < board.size := by
  simp only [isOutside, slot?]
  split <;> simp [*]

theorem cellAt_eq_none_iff {board : Board} {point : Point} :
    board.cellAt point = none ↔ board.isOutside point = true := by
  unfold cellAt isOutside
  cases h : board.slot? point with
  | none => simp
  | some slot => simpa using lt_size_of_slot? h

theorem isWall_of_isOutside {board : Board} {point : Point}
    (outside : board.isOutside point = true) : board.isWall point = true := by
  rw [isWall, cellAt_eq_none_iff.mpr outside]

theorem isOutside_of_isWall {board : Board} {point : Point}
    (free : board.isWall point = false) : board.isOutside point = false := by
  cases outside : board.isOutside point with
  | false => rfl
  | true => cases free.symm.trans (isWall_of_isOutside outside)

end Board
end Boardwalk
