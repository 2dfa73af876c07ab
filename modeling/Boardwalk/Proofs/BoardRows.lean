import Boardwalk.Board.Basic

/-!
# Rows of a board

A board keeps its cells in one array, row by row. Cut into rows again they are the rows
that the board was made of, and the cell of a point stands in the row and at the place
that its coordinates say. So a board is nothing but its rows.
-/
namespace Boardwalk.Board

variable {board : Board}

theorem length_cells (board : Board) : board.cells.toList.length = board.size * board.size := by
  rw [Array.length_toList, board.cells_size]

theorem row_eq (board : Board) (y : Nat) :
    board.row y = (board.cells.toList.drop (y * board.size)).take board.size := by
  rw [row, Array.toList_extract, List.extract_eq_take_drop, Nat.succ_mul, Nat.add_sub_cancel_left]

theorem length_row {y : Nat} (inside : y < board.size) : (board.row y).length = board.size := by
  have bound : (y + 1) * board.size ≤ board.size * board.size := Nat.mul_le_mul_right _ inside
  rw [Nat.succ_mul] at bound
  rw [row_eq, List.length_take, List.length_drop, length_cells]
  omega

theorem length_rows (board : Board) : board.rows.length = board.size := by
  rw [rows, List.length_map, List.length_range]

theorem length_of_mem_rows {row : List Cell} (member : row ∈ board.rows) :
    row.length = board.size := by
  obtain ⟨y, inside, rfl⟩ := List.mem_map.mp member
  exact length_row (List.mem_range.mp inside)

theorem flatten_rows (board : Board) : board.rows.flatten = board.cells.toList := by
  have upTo (count : Nat) : ((List.range count).map board.row).flatten =
      board.cells.toList.take (count * board.size) := by
    induction count with
    | zero =>
        rw [Nat.zero_mul]
        rfl
    | succ count ih =>
        rw [List.range_succ, List.map_append, List.flatten_append, ih, List.map_singleton,
          List.flatten_singleton, row_eq, Nat.succ_mul, List.take_add]
  rw [rows, upTo, ← length_cells, List.take_length]

theorem rows_eq_of_flatten {rows : List (List Cell)} (count : rows.length = board.size)
    (square : ∀ row ∈ rows, row.length = board.size)
    (cells : rows.flatten = board.cells.toList) : board.rows = rows := by
  have lengths {lines : List (List Cell)} (count : lines.length = board.size)
      (square : ∀ row ∈ lines, row.length = board.size) :
      lines.map List.length = List.replicate board.size board.size := by
    rw [List.eq_replicate_iff, List.length_map, List.forall_mem_map]
    exact ⟨count, square⟩
  rw [List.eq_iff_flatten_eq, flatten_rows, cells, lengths count square,
    lengths board.length_rows fun _ member => length_of_mem_rows member]
  exact ⟨rfl, rfl⟩

theorem eq_of_rows_eq {a b : Board} (h : a.rows = b.rows) : a = b := by
  have size : a.size = b.size := by rw [← length_rows, h, length_rows]
  have cells : a.cells = b.cells := by rw [← Array.toList_inj, ← flatten_rows, h, flatten_rows]
  cases a
  cases b
  cases size
  cases cells
  rfl

theorem ofRows_eq_error_iff_find? {rows : List (List Cell)} {error : BoardError} :
    ofRows rows = .error error ↔
      (rows = [] ∧ error = .empty) ∨
      ∃ row, rows.find? (fun row => row.length != rows.length) = some row ∧
        error = .notSquare rows.length row.length := by
  unfold ofRows
  split
  case isTrue empty => simp [List.isEmpty_iff.mp empty, eq_comm]
  case isFalse nonempty =>
    rw [List.isEmpty_iff] at nonempty
    split
    case h_1 found => simp [nonempty, found, eq_comm]
    case h_2 found => simp [nonempty, found]

/-- Rows are refused because there are none, or for the first that is too long or too short. -/
theorem ofRows_eq_error_iff {rows : List (List Cell)} {error : BoardError} :
    ofRows rows = .error error ↔
      (rows = [] ∧ error = .empty) ∨
      ∃ before row after, rows = before ++ row :: after ∧
        (∀ earlier ∈ before, earlier.length = rows.length) ∧ row.length ≠ rows.length ∧
        error = .notSquare rows.length row.length := by
  rw [ofRows_eq_error_iff_find?]
  refine or_congr_right ?_
  constructor
  · rintro ⟨row, found, refused⟩
    obtain ⟨uneven, before, after, cut, even⟩ := List.find?_eq_some_iff_append.mp found
    refine ⟨before, row, after, cut, ?_, bne_iff_ne.mp uneven, refused⟩
    intro earlier member
    simpa using even earlier member
  · rintro ⟨before, row, after, cut, even, uneven, refused⟩
    refine ⟨row, List.find?_eq_some_iff_append.mpr ⟨bne_iff_ne.mpr uneven, before, after, cut, ?_⟩,
      refused⟩
    intro earlier member
    simpa using even earlier member

theorem rows_of_ofRows {rows : List (List Cell)} (h : ofRows rows = .ok board) :
    rows ≠ [] ∧ (∀ row ∈ rows, row.length = rows.length) ∧ board.rows = rows := by
  unfold ofRows at h
  split at h
  case isTrue => cases h
  case isFalse nonempty =>
    split at h
    case h_1 => cases h
    case h_2 found =>
      have square : ∀ row ∈ rows, row.length = rows.length := by
        simpa using List.find?_eq_none.mp found
      cases h
      refine ⟨fun empty => nonempty (List.isEmpty_iff.mpr empty), square, ?_⟩
      exact rows_eq_of_flatten rfl square rfl

theorem exists_ofRows {rows : List (List Cell)} (nonempty : rows ≠ [])
    (square : ∀ row ∈ rows, row.length = rows.length) : ∃ board, ofRows rows = .ok board := by
  cases h : ofRows rows with
  | ok board => exact ⟨board, rfl⟩
  | error error =>
      rcases ofRows_eq_error_iff.mp h with ⟨empty, -⟩ | ⟨before, row, after, cut, -, uneven, -⟩
      · exact absurd empty nonempty
      · have member : row ∈ rows := by
          rw [cut]
          exact List.mem_append_right _ List.mem_cons_self
        exact absurd (square row member) uneven

theorem rows_ne_nil (size : 1 ≤ board.size) : board.rows ≠ [] := by
  rw [← List.length_pos_iff, length_rows]
  exact size

/-- Rows make the board that has these rows, if it has any. -/
theorem ofRows_eq_ok_iff {rows : List (List Cell)} :
    ofRows rows = .ok board ↔ 1 ≤ board.size ∧ board.rows = rows := by
  constructor
  · intro made
    obtain ⟨nonempty, -, rfl⟩ := rows_of_ofRows made
    refine ⟨?_, rfl⟩
    rw [← length_rows]
    exact List.length_pos_iff.mpr nonempty
  · rintro ⟨size, rfl⟩
    have square : ∀ row ∈ board.rows, row.length = board.rows.length := by
      intro row member
      rw [length_of_mem_rows member, length_rows]
    obtain ⟨other, made⟩ := exists_ofRows (rows_ne_nil size) square
    rw [made, eq_of_rows_eq (rows_of_ofRows made).2.2]

theorem exists_cell {point : Point} {x y : Nat} (column : point.x.toInt = x)
    (row : point.y.toInt = y) (inside : x < board.size ∧ y < board.size) :
    ∃ row cell, board.rows[y]? = some row ∧ row[x]? = some cell ∧
      board.cellAt point = some cell := by
  have slot : board.slot? point = some (y * board.size + x) := by
    rw [slot?, column, row, if_pos (by omega), Int.toNat_natCast, Int.toNat_natCast]
  have stored : y * board.size + x < board.cells.size := lt_size_of_slot? slot
  refine ⟨board.row y, board.cells[y * board.size + x], ?_, ?_, ?_⟩
  · rw [rows, List.getElem?_map, List.getElem?_range inside.2]
    rfl
  · rw [row_eq, List.getElem?_take_of_lt inside.1, List.getElem?_drop, Array.getElem?_toList,
      Array.getElem?_eq_getElem stored]
  · rw [cellAt, slot]
    exact Array.getElem?_eq_getElem stored

end Boardwalk.Board
