import Boardwalk.Board.Basic
import Boardwalk.Text.Blank
import Boardwalk.Text.Lines

/-!
# Board layouts

A layout is a board drawn with one character a cell and one line a row. Lines that
are blank are passed over. A character that stands for no cell is reported before
anything is said about the shape of the layout.
-/
namespace Boardwalk

namespace Cell

def ofChar? : Char → Option Cell
  | 'o' => some .empty
  | '+' => some .wall
  | 'x' => some .finish
  | _ => none

def char : Cell → Char
  | .empty => 'o'
  | .wall => '+'
  | .finish => 'x'

def ofName? : String → Option Cell
  | "Empty" => some .empty
  | "Wall" => some .wall
  | "Finish" => some .finish
  | _ => none

def ofJson? (value : Json) : Option Cell := value.word?.bind ofName?

def name : Cell → String
  | .empty => "Empty"
  | .wall => "Wall"
  | .finish => "Finish"

@[simp] theorem ofChar?_char (cell : Cell) : ofChar? cell.char = some cell := by
  cases cell <;> rfl

end Cell

namespace Board

/-- The cells of a line of a layout, of which the next character stands in a column. -/
def readRow (line column : Nat) : List Char → Except BoardError (List Cell)
  | [] => .ok []
  | char :: rest =>
    match Cell.ofChar? char with
    | none => .error (.invalidCell char line column)
    | some cell =>
      match readRow line (column + 1) rest with
      | .error error => .error error
      | .ok cells => .ok (cell :: cells)

def readRows : List (List Char × Nat) → Except BoardError (List (List Cell))
  | [] => .ok []
  | (line, number) :: rest =>
    if Text.allBlank line then readRows rest
    else
      match readRow number 1 line with
      | .error error => .error error
      | .ok row =>
        match readRows rest with
        | .error error => .error error
        | .ok rows => .ok (row :: rows)

def ofText (text : String) : Except BoardError Board :=
  match readRows ((Text.layoutLines text.toList).zipIdx 1) with
  | .error error => .error error
  | .ok rows => ofRows rows

def text (board : Board) : String :=
  String.join (board.rows.map fun row => String.ofList (row.map Cell.char) ++ "\n")

/-- The cells of a JSON array of arrays of cell names. -/
def rowsOfJson? (value : Json) : Option (List (List Cell)) := do
  let rows ← value.arr?
  rows.mapM fun row => do
    let cells ← row.arr?
    cells.mapM Cell.ofJson?

end Board
end Boardwalk
