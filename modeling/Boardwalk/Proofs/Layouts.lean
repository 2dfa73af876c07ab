import Boardwalk.Board.Layout
import Boardwalk.Proofs.BoardRows
import Boardwalk.Proofs.Text

/-!
# Layouts and boards

A layout is read in two stages: its lines that are not blank become rows of cells, and
the rows become a board. The first stage fails at the first character that stands for no
cell, and counts blank lines to say where that is. The second stage fails at the shape of
what is left. Neither of them changes anything else, so a board that is drawn and read
again is the same board.
-/
namespace Boardwalk

def Cell.marks : List Char := ['o', '+', 'x']

namespace Board

def drawn (lines : List (List Char)) : List (List Char) :=
  lines.filter fun line => !Text.allBlank line

/-- Rows of characters that draw a board. -/
structure Square (rows : List (List Char)) : Prop where
  nonempty : rows ≠ []
  even : ∀ row ∈ rows, row.length = rows.length
  clean : ∀ row ∈ rows, ∀ char ∈ row, char ∈ Cell.marks

/-- A board has just the cells that rows of characters draw, and is drawn by these rows. -/
structure DrawnBy (rows : List (List Char)) (board : Board) : Prop where
  size : board.size = rows.length
  cell : ∀ (point : Point) (x y : Nat), point.x.toInt = x → point.y.toInt = y →
    x < rows.length → y < rows.length →
    ∃ row cell, rows[y]? = some row ∧ row[x]? = some cell.char ∧ board.cellAt point = some cell
  text : board.text = String.join (rows.map fun row => String.ofList row ++ "\n")

/-- The first character of a line that stands for no cell has a number of characters before it. -/
structure StrayAt (chars : List Char) (place : Nat) (char : Char) : Prop where
  here : chars[place]? = some char
  stray : char ∉ Cell.marks
  before : ∀ earlier ∈ chars.take place, earlier ∈ Cell.marks

/-- The first character in lines that are not blank that stands for no cell has a number of lines
above it, blank ones among them. -/
structure FirstStray (lines : List (List Char)) (number place : Nat) (char : Char) : Prop where
  here : ∃ line, lines[number]? = some line ∧ Text.allBlank line = false ∧ StrayAt line place char
  above : ∀ line ∈ lines.take number, Text.allBlank line = false →
    ∀ earlier ∈ line, earlier ∈ Cell.marks

/-- Why lines are no layout of a board. -/
inductive Refused (lines : List (List Char)) : BoardError → Prop
  | stray {number place : Nat} {char : Char} : FirstStray lines number place char →
      Refused lines (.invalidCell char (number + 1) (place + 1))
  | empty : drawn lines = [] → Refused lines .empty
  | ragged {before after : List (List Char)} {row : List Char} :
      (∀ line ∈ drawn lines, ∀ char ∈ line, char ∈ Cell.marks) →
      drawn lines = before ++ row :: after →
      (∀ earlier ∈ before, earlier.length = (drawn lines).length) →
      row.length ≠ (drawn lines).length →
      Refused lines (.notSquare (drawn lines).length row.length)

end Board

namespace Cell

theorem char_mem_marks (cell : Cell) : cell.char ∈ marks := by
  cases cell <;> decide

theorem mem_marks_of_mem_map {cells : List Cell} : ∀ c ∈ cells.map char, c ∈ marks :=
  List.forall_mem_map.mpr fun cell _ => cell.char_mem_marks

theorem ofChar?_eq_some_iff {char : Char} {cell : Cell} :
    ofChar? char = some cell ↔ cell.char = char := by
  constructor
  · fun_cases ofChar? char <;> rintro ⟨⟩ <;> rfl
  · rintro rfl
    exact ofChar?_char cell

theorem ofChar?_eq_none_iff {char : Char} : ofChar? char = none ↔ char ∉ marks := by
  fun_cases ofChar? char <;> simp_all [marks]

theorem char_injective : Function.Injective char := by
  intro a b same
  exact Option.some.inj ((ofChar?_char a).symm.trans (same ▸ ofChar?_char b))

/-- Each character is the one of a cell, or stray. -/
theorem exists_char_or_not_mem (c : Char) : (∃ cell : Cell, cell.char = c) ∨ c ∉ marks := by
  cases read : ofChar? c with
  | none => exact .inr (ofChar?_eq_none_iff.mp read)
  | some cell => exact .inl ⟨cell, ofChar?_eq_some_iff.mp read⟩

theorem isBlank_char (cell : Cell) : Text.isBlank cell.char = false := by
  cases cell <;> decide

theorem oneLine_map_char (cells : List Cell) : Text.OneLine (cells.map char) := by
  constructor
  · exact fun feed => absurd (mem_marks_of_mem_map _ feed) (by decide)
  · exact fun carriage => absurd (mem_marks_of_mem_map _ carriage) (by decide)

end Cell

namespace Board

variable {lines : List (List Char)} {error : BoardError}

theorem not_strayAt_nil {place : Nat} {char : Char} : ¬ StrayAt [] place char := by
  intro h
  cases h.here

theorem strayAt_cons_of_not_mem {first : Char} (stray : first ∉ Cell.marks) {rest : List Char}
    {place : Nat} {char : Char} :
    StrayAt (first :: rest) place char ↔ place = 0 ∧ char = first := by
  constructor
  · intro h
    cases place with
    | zero => exact ⟨rfl, (Option.some.inj h.here).symm⟩
    | succ place => exact absurd (h.before first List.mem_cons_self) stray
  · rintro ⟨rfl, rfl⟩
    exact ⟨rfl, stray, fun _ member => absurd member List.not_mem_nil⟩

theorem strayAt_cons_char {cell : Cell} {rest : List Char} {place : Nat} {char : Char} :
    StrayAt (cell.char :: rest) place char ↔
      ∃ later, place = later + 1 ∧ StrayAt rest later char := by
  constructor
  · intro h
    cases place with
    | zero => exact absurd (Option.some.inj h.here ▸ cell.char_mem_marks) h.stray
    | succ place =>
        refine ⟨place, rfl, h.here, h.stray, fun earlier member => ?_⟩
        exact h.before earlier (List.mem_cons_of_mem _ member)
  · rintro ⟨place, rfl, h⟩
    exact ⟨h.here, h.stray, List.forall_mem_cons.mpr ⟨cell.char_mem_marks, h.before⟩⟩

theorem not_firstStray_nil {number place : Nat} {char : Char} :
    ¬ FirstStray [] number place char := by
  intro h
  obtain ⟨line, found, -⟩ := h.here
  cases found

theorem firstStray_cons_of_strayAt {line : List Char} (ink : Text.allBlank line = false)
    {before : Nat} {stray : Char} (found : StrayAt line before stray) {number place : Nat}
    {char : Char} :
    FirstStray (line :: lines) number place char ↔ number = 0 ∧ StrayAt line place char := by
  constructor
  · intro h
    cases number with
    | zero =>
        obtain ⟨_, here, -, stray⟩ := h.here
        cases here
        exact ⟨rfl, stray⟩
    | succ number =>
        have clean := h.above line List.mem_cons_self ink stray (List.mem_of_getElem? found.here)
        exact absurd clean found.stray
  · rintro ⟨rfl, stray⟩
    exact ⟨⟨line, rfl, ink, stray⟩, fun _ member => absurd member List.not_mem_nil⟩

theorem firstStray_cons {line : List Char}
    (clean : Text.allBlank line = false → ∀ char ∈ line, char ∈ Cell.marks)
    {number place : Nat} {char : Char} :
    FirstStray (line :: lines) number place char ↔
      ∃ later, number = later + 1 ∧ FirstStray lines later place char := by
  constructor
  · intro h
    cases number with
    | zero =>
        obtain ⟨_, here, ink, stray⟩ := h.here
        cases here
        exact absurd (clean ink char (List.mem_of_getElem? stray.here)) stray.stray
    | succ number =>
        refine ⟨number, rfl, h.here, fun earlier member => ?_⟩
        exact h.above earlier (List.mem_cons_of_mem line member)
  · rintro ⟨number, rfl, h⟩
    exact ⟨h.here, List.forall_mem_cons.mpr ⟨clean, h.above⟩⟩

theorem map_cons_eq_ok_iff {α : Type} {first : α} {result : Except BoardError (List α)}
    {all : List α} :
    result.map (first :: ·) = .ok all ↔ ∃ rest, all = first :: rest ∧ result = .ok rest := by
  cases result <;> simp [Except.map, eq_comm]

theorem map_cons_eq_error_iff {α : Type} {first : α} {result : Except BoardError (List α)} :
    result.map (first :: ·) = .error error ↔ result = .error error := by
  cases result <;> simp [Except.map]

theorem readRow_cons_char (line column : Nat) (cell : Cell) (rest : List Char) :
    readRow line column (cell.char :: rest) =
      (readRow line (column + 1) rest).map (cell :: ·) := by
  rw [readRow, Cell.ofChar?_char]
  cases readRow line (column + 1) rest <;> rfl

theorem readRow_cons_of_not_mem (line column : Nat) {char : Char} (stray : char ∉ Cell.marks)
    (rest : List Char) :
    readRow line column (char :: rest) = .error (.invalidCell char line column) := by
  rw [readRow, Cell.ofChar?_eq_none_iff.mpr stray]

theorem readRow_eq_ok_iff {line column : Nat} {chars : List Char} {cells : List Cell} :
    readRow line column chars = .ok cells ↔ cells.map Cell.char = chars := by
  induction chars generalizing column cells with
  | nil => simp [readRow, eq_comm]
  | cons char rest ih =>
      rw [List.map_eq_cons_iff]
      rcases Cell.exists_char_or_not_mem char with ⟨cell, rfl⟩ | stray
      · rw [readRow_cons_char, map_cons_eq_ok_iff]
        constructor
        · rintro ⟨others, rfl, read⟩
          exact ⟨cell, others, rfl, rfl, ih.mp read⟩
        · rintro ⟨other, others, rfl, same, spelled⟩
          cases Cell.char_injective same
          exact ⟨others, rfl, ih.mpr spelled⟩
      · rw [readRow_cons_of_not_mem line column stray]
        refine ⟨fun read => (by cases read), ?_⟩
        rintro ⟨cell, -, -, rfl, -⟩
        exact absurd cell.char_mem_marks stray

theorem readRow_eq_error_iff {line column : Nat} {chars : List Char} :
    readRow line column chars = .error error ↔
      ∃ place char, StrayAt chars place char ∧ error = .invalidCell char line (place + column) := by
  induction chars generalizing column with
  | nil => simp [readRow, not_strayAt_nil]
  | cons char rest ih =>
      rcases Cell.exists_char_or_not_mem char with ⟨cell, rfl⟩ | stray
      · rw [readRow_cons_char, map_cons_eq_error_iff, ih]
        constructor
        · rintro ⟨place, char, found, rfl⟩
          refine ⟨place + 1, char, strayAt_cons_char.mpr ⟨place, rfl, found⟩, ?_⟩
          rw [Nat.succ_add_eq_add_succ]
        · rintro ⟨_, char, found, rfl⟩
          obtain ⟨place, rfl, later⟩ := strayAt_cons_char.mp found
          refine ⟨place, char, later, ?_⟩
          rw [Nat.succ_add_eq_add_succ]
      · rw [readRow_cons_of_not_mem line column stray]
        simp [strayAt_cons_of_not_mem stray, eq_comm]

theorem readRows_cons_blank (first : Nat) {line : List Char} (blank : Text.allBlank line = true) :
    readRows ((line :: lines).zipIdx first) =
      readRows (lines.zipIdx (first + 1)) := by
  rw [List.zipIdx_cons, readRows, if_pos blank]

theorem readRows_cons_of_error {first : Nat} {line : List Char}
    (ink : Text.allBlank line = false) (read : readRow first 1 line = .error error) :
    readRows ((line :: lines).zipIdx first) = .error error := by
  rw [List.zipIdx_cons, readRows, ink, read]
  rfl

theorem readRows_cons_of_ok {first : Nat} {line : List Char} {row : List Cell}
    (ink : Text.allBlank line = false) (read : readRow first 1 line = .ok row) :
    readRows ((line :: lines).zipIdx first) =
      (readRows (lines.zipIdx (first + 1))).map (row :: ·) := by
  rw [List.zipIdx_cons, readRows, ink, read]
  cases readRows (lines.zipIdx (first + 1)) <;> rfl

theorem drawn_cons_blank {line : List Char} (blank : Text.allBlank line = true) :
    drawn (line :: lines) = drawn lines :=
  List.filter_cons_of_neg (by simp [blank])

theorem drawn_cons {line : List Char} (ink : Text.allBlank line = false) :
    drawn (line :: lines) = line :: drawn lines :=
  List.filter_cons_of_pos (by simp [ink])

theorem readRows_eq_ok_iff {first : Nat} {rows : List (List Cell)} :
    readRows (lines.zipIdx first) = .ok rows ↔
      rows.map (·.map Cell.char) = drawn lines := by
  induction lines generalizing first rows with
  | nil => simp [readRows, drawn, eq_comm]
  | cons line lines ih =>
      cases blank : Text.allBlank line with
      | true => rw [readRows_cons_blank first blank, drawn_cons_blank blank, ih]
      | false =>
          rw [drawn_cons blank, List.map_eq_cons_iff]
          cases read : readRow first 1 line with
          | error error =>
              rw [readRows_cons_of_error blank read]
              refine ⟨fun h => (by cases h), ?_⟩
              rintro ⟨row, -, -, spelled, -⟩
              cases read.symm.trans (readRow_eq_ok_iff.mpr spelled)
          | ok row =>
              rw [readRows_cons_of_ok blank read, map_cons_eq_ok_iff]
              constructor
              · rintro ⟨others, rfl, later⟩
                exact ⟨row, others, rfl, readRow_eq_ok_iff.mp read, ih.mp later⟩
              · rintro ⟨other, others, rfl, spelled, later⟩
                cases read.symm.trans (readRow_eq_ok_iff.mpr spelled)
                exact ⟨others, rfl, ih.mpr later⟩

theorem readRows_eq_error_iff {first : Nat} :
    readRows (lines.zipIdx first) = .error error ↔
      ∃ number place char, FirstStray lines number place char ∧
        error = .invalidCell char (number + first) (place + 1) := by
  induction lines generalizing first with
  | nil => simp [readRows, not_firstStray_nil]
  | cons line lines ih =>
      -- A line without a stray only moves the count of lines on, whether it is blank or not.
      have shift (clean : Text.allBlank line = false → ∀ char ∈ line, char ∈ Cell.marks) :
          readRows (lines.zipIdx (first + 1)) = .error error ↔
            ∃ number place char, FirstStray (line :: lines) number place char ∧
              error = .invalidCell char (number + first) (place + 1) := by
        rw [ih]
        constructor
        · rintro ⟨number, place, char, found, rfl⟩
          refine ⟨number + 1, place, char, (firstStray_cons clean).mpr ⟨number, rfl, found⟩, ?_⟩
          rw [Nat.succ_add_eq_add_succ]
        · rintro ⟨_, place, char, found, rfl⟩
          obtain ⟨number, rfl, later⟩ := (firstStray_cons clean).mp found
          refine ⟨number, place, char, later, ?_⟩
          rw [Nat.succ_add_eq_add_succ]
      cases blank : Text.allBlank line with
      | true =>
          rw [readRows_cons_blank first blank]
          apply shift
          intro ink
          cases blank.symm.trans ink
      | false =>
          cases read : readRow first 1 line with
          | error other =>
              rw [readRows_cons_of_error blank read]
              obtain ⟨place, char, found, refused⟩ := readRow_eq_error_iff.mp read
              constructor
              · rintro ⟨⟩
                have here : FirstStray (line :: lines) 0 place char :=
                  (firstStray_cons_of_strayAt blank found).mpr ⟨rfl, found⟩
                exact ⟨0, place, char, here, by rw [refused, Nat.zero_add]⟩
              · rintro ⟨_, place, char, stray, rfl⟩
                obtain ⟨rfl, here⟩ := (firstStray_cons_of_strayAt blank found).mp stray
                cases read.symm.trans (readRow_eq_error_iff.mpr ⟨place, char, here, rfl⟩)
                rw [Nat.zero_add]
          | ok row =>
              rw [readRows_cons_of_ok blank read, map_cons_eq_error_iff]
              apply shift
              intro _
              rw [← readRow_eq_ok_iff.mp read]
              exact Cell.mem_marks_of_mem_map

/-- Lines that have no other characters than those of cells are read, whatever their lengths. -/
theorem exists_readRows (first : Nat)
    (clean : ∀ row ∈ drawn lines, ∀ char ∈ row, char ∈ Cell.marks) :
    ∃ rows, readRows (lines.zipIdx first) = .ok rows := by
  cases read : readRows (lines.zipIdx first) with
  | ok rows => exact ⟨rows, rfl⟩
  | error error =>
      obtain ⟨number, place, char, found, -⟩ := readRows_eq_error_iff.mp read
      obtain ⟨line, here, ink, stray⟩ := found.here
      have member : line ∈ drawn lines :=
        List.mem_filter.mpr ⟨List.mem_of_getElem? here, by simp [ink]⟩
      exact absurd (clean line member char (List.mem_of_getElem? stray.here)) stray.stray

theorem ofText_eq_ok_iff {text : String} {board : Board} :
    ofText text = .ok board ↔
      ∃ rows, readRows ((Text.layoutLines text.toList).zipIdx 1) = .ok rows ∧
        ofRows rows = .ok board := by
  rw [ofText]
  cases readRows ((Text.layoutLines text.toList).zipIdx 1) <;> simp

theorem ofText_eq_error_iff {text : String} :
    ofText text = .error error ↔
      readRows ((Text.layoutLines text.toList).zipIdx 1) = .error error ∨
      ∃ rows, readRows ((Text.layoutLines text.toList).zipIdx 1) = .ok rows ∧
        ofRows rows = .error error := by
  rw [ofText]
  cases readRows ((Text.layoutLines text.toList).zipIdx 1) <;> simp

/-- The board of a layout is the one whose rows are drawn there. -/
theorem ofText_eq_ok_iff_drawn {text : String} {board : Board} :
    ofText text = .ok board ↔
      1 ≤ board.size ∧
        board.rows.map (·.map Cell.char) = drawn (Text.layoutLines text.toList) := by
  rw [ofText_eq_ok_iff]
  constructor
  · rintro ⟨rows, read, made⟩
    obtain ⟨size, rfl⟩ := ofRows_eq_ok_iff.mp made
    exact ⟨size, readRows_eq_ok_iff.mp read⟩
  · rintro ⟨size, shown⟩
    exact ⟨board.rows, readRows_eq_ok_iff.mpr shown, ofRows_eq_ok_iff.mpr ⟨size, rfl⟩⟩

theorem allBlank_map_char {row : List Cell} (ne : row ≠ []) :
    Text.allBlank (row.map Cell.char) = false := by
  obtain ⟨cell, rest, rfl⟩ := List.exists_cons_of_ne_nil ne
  rw [List.map_cons, Text.allBlank, List.all_cons, cell.isBlank_char, Bool.false_and]

theorem toList_text (board : Board) :
    board.text.toList = (board.rows.map (·.map Cell.char)).flatMap (· ++ ['\n']) := by
  rw [text, String.toList_join, List.flatMap_map, List.flatMap_map]
  simp

/-- What is drawn of a board is its rows. -/
theorem drawn_text {board : Board} (size : 1 ≤ board.size) :
    drawn (Text.layoutLines board.text.toList) = board.rows.map (·.map Cell.char) := by
  have oneLine : ∀ line ∈ board.rows.map (·.map Cell.char), Text.OneLine line :=
    List.forall_mem_map.mpr fun row _ => Cell.oneLine_map_char row
  rw [toList_text, Text.layoutLines_flatMap oneLine, drawn, List.filter_eq_self,
    List.forall_mem_map]
  intro row member
  have ne : row ≠ [] := by
    rw [← List.length_pos_iff, length_of_mem_rows member]
    exact size
  rw [allBlank_map_char ne, Bool.not_false]

theorem drawnBy_of_map {rows : List (List Char)} {board : Board}
    (shown : board.rows.map (·.map Cell.char) = rows) : DrawnBy rows board := by
  have count : rows.length = board.size := by rw [← shown, List.length_map, length_rows]
  subst shown
  refine ⟨count.symm, ?_, ?_⟩
  · intro point x y column line width height
    rw [count] at width height
    obtain ⟨row, cell, stored, placed, found⟩ := exists_cell column line ⟨width, height⟩
    refine ⟨row.map Cell.char, cell, ?_, ?_, found⟩
    · rw [List.getElem?_map, stored]
      rfl
    · rw [List.getElem?_map, placed]
      rfl
  · rw [text, List.map_map]
    rfl

theorem square_of_map {rows : List (List Char)} {board : Board} (size : 1 ≤ board.size)
    (shown : board.rows.map (·.map Cell.char) = rows) : Square rows := by
  subst shown
  refine ⟨?_, ?_, ?_⟩
  · rw [Ne, List.map_eq_nil_iff]
    exact rows_ne_nil size
  · rw [List.forall_mem_map]
    intro row member
    rw [List.length_map, List.length_map, length_of_mem_rows member, length_rows]
  · rw [List.forall_mem_map]
    exact fun row _ => Cell.mem_marks_of_mem_map

theorem exists_ofText {text : String} (square : Square (drawn (Text.layoutLines text.toList))) :
    ∃ board, ofText text = .ok board := by
  obtain ⟨rows, read⟩ := exists_readRows 1 square.clean
  have nonempty := square.nonempty
  have even := square.even
  rw [← readRows_eq_ok_iff.mp read] at nonempty even
  obtain ⟨board, made⟩ : ∃ board, ofRows rows = .ok board := by
    apply exists_ofRows
    · simpa using nonempty
    · simpa using even
  exact ⟨board, ofText_eq_ok_iff.mpr ⟨rows, read, made⟩⟩

/-- A board that is drawn is read back, and a layout is read if it is a square of characters
that stand for cells, as the board of these cells. -/
theorem square_layouts_are_boards :
    (∀ board : Board, 1 ≤ board.size → ofText board.text = .ok board) ∧
    ∀ text : String,
      ((∃ board, ofText text = .ok board) ↔ Square (drawn (Text.layoutLines text.toList))) ∧
      ∀ board, ofText text = .ok board →
        DrawnBy (drawn (Text.layoutLines text.toList)) board := by
  refine ⟨?_, fun text => ⟨⟨?_, exists_ofText⟩, ?_⟩⟩
  · intro board size
    exact ofText_eq_ok_iff_drawn.mpr ⟨size, (drawn_text size).symm⟩
  · rintro ⟨board, read⟩
    obtain ⟨size, shown⟩ := ofText_eq_ok_iff_drawn.mp read
    exact square_of_map size shown
  · intro board read
    exact drawnBy_of_map (ofText_eq_ok_iff_drawn.mp read).2

/-- Returns at the ends of lines and lines that are blank leave nothing on the board. -/
theorem loose_layout_read_and_drawn :
    ∃ board, ofText "o+\r\n \t\n\r\r\nxo" = .ok board ∧ board.size = 2 ∧
      board.cellAt ⟨1, 0⟩ = some .wall ∧ board.text = "o+\nxo\n" ∧
      ofText board.text = .ok board := by
  have rows :
      drawn (Text.layoutLines "o+\r\n \t\n\r\r\nxo".toList) = [['o', '+'], ['x', 'o']] := by
    decide
  obtain ⟨again, once⟩ := square_layouts_are_boards
  obtain ⟨accepted, faithful⟩ := once "o+\r\n \t\n\r\r\nxo"
  rw [rows] at accepted faithful
  obtain ⟨board, read⟩ := accepted.mpr ⟨by decide, by decide, by simp [Cell.marks]⟩
  have shown := faithful board read
  have size : board.size = 2 := shown.size
  obtain ⟨_, cell, ⟨⟩, char, found⟩ := shown.cell ⟨1, 0⟩ 1 0 rfl rfl (by decide) (by decide)
  have wall : Cell.wall = cell := Cell.char_injective (Option.some.inj char)
  exact ⟨board, read, size, wall ▸ found, shown.text, again board (by omega)⟩

theorem ofRows_eq_error_iff_of_map {cells : List (List Cell)} {rows : List (List Char)}
    (shown : cells.map (·.map Cell.char) = rows) :
    ofRows cells = .error error ↔
      (rows = [] ∧ error = .empty) ∨
      ∃ before row after, rows = before ++ row :: after ∧
        (∀ earlier ∈ before, earlier.length = rows.length) ∧ row.length ≠ rows.length ∧
        error = .notSquare rows.length row.length := by
  subst shown
  rw [ofRows_eq_error_iff, List.map_eq_nil_iff, List.length_map]
  refine or_congr_right ?_
  constructor
  · rintro ⟨before, row, after, cut, even, uneven, rfl⟩
    refine ⟨before.map (·.map Cell.char), row.map Cell.char, after.map (·.map Cell.char), ?_⟩
    rw [List.forall_mem_map, List.length_map]
    refine ⟨?_, ?_, uneven, rfl⟩
    · rw [cut, List.map_append, List.map_cons]
    · simpa using even
  · rintro ⟨_, _, _, cut, even, uneven, rfl⟩
    obtain ⟨before, later, rfl, rfl, rest⟩ := List.map_eq_append_iff.mp cut
    obtain ⟨row, after, rfl, rfl, rfl⟩ := List.map_eq_cons_iff.mp rest
    rw [List.forall_mem_map] at even
    rw [List.length_map] at uneven ⊢
    refine ⟨before, row, after, rfl, ?_, uneven, rfl⟩
    simpa using even

/-- A layout is refused for its first stray character, and for its shape only if it has none. Its
lines are what stands between its line feeds, without the carriage returns at their ends, and
behind a last line feed there is none. -/
theorem layout_refused_for_first_fault (text : String) (error : BoardError) :
    let lines := Text.layoutLines text.toList
    let pieces := text.toList.splitOn '\n'
    (ofText text = .error error ↔ Refused lines error) ∧
    ∀ number line, lines[number]? = some line ↔
      ∃ returns, pieces[number]? = some (line ++ List.replicate returns '\r') ∧
        line.getLast? ≠ some '\r' ∧
        (number + 1 = pieces.length → line ++ List.replicate returns '\r' ≠ []) := by
  intro lines pieces
  refine ⟨?_, fun number line => Text.getElem?_layoutLines_iff⟩
  rw [ofText_eq_error_iff, readRows_eq_error_iff]
  constructor
  · rintro (⟨number, place, char, found, rfl⟩ | ⟨cells, read, refused⟩)
    · exact .stray found
    · have shown := readRows_eq_ok_iff.mp read
      rcases (ofRows_eq_error_iff_of_map shown).mp refused with
        ⟨empty, rfl⟩ | ⟨before, row, after, cut, even, uneven, rfl⟩
      · exact .empty empty
      · refine .ragged ?_ cut even uneven
        rw [← shown, List.forall_mem_map]
        exact fun cells _ => Cell.mem_marks_of_mem_map
  · intro refused
    cases refused with
    | @stray number place char found => exact .inl ⟨number, place, char, found, rfl⟩
    | empty empty => exact .inr ⟨[], readRows_eq_ok_iff.mpr empty.symm, rfl⟩
    | @ragged before after row clean cut even uneven =>
        obtain ⟨cells, read⟩ := exists_readRows 1 clean
        refine .inr ⟨cells, read, ?_⟩
        rw [ofRows_eq_error_iff_of_map (readRows_eq_ok_iff.mp read)]
        exact .inr ⟨before, row, after, cut, even, uneven, rfl⟩

example : ofText "oo\n\n\no?x" = .error (.invalidCell '?' 4 2) := rfl

end Board
end Boardwalk
