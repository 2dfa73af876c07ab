import Boardwalk.Proofs.Layouts
import Mathlib.Algebra.Order.Ring.Nat

/-!
# Looking up points

A board finds the cell of a point by one sum: the row times the size, plus the column.
On the square this sum takes each number below the number of cells exactly once, so a
lookup never reads beyond the cells, no two points share a cell, and no cell is out of
reach. The last of these needs coordinates that can count the columns, which they can
whenever the cells can be counted by a machine word.
-/
namespace Boardwalk.Board

structure Indexed (board : Board) : Prop where
  count : board.cells.size = board.size * board.size
  /-- The slot of a point is a machine word and the place of a cell, which is the answer. -/
  slot : ∀ point slot, board.slot? point = some slot →
    slot = point.y.toInt.toNat * board.size + point.x.toInt.toNat ∧ slot < 2 ^ 64 ∧
      ∃ inside : slot < board.cells.size, board.cellAt point = some board.cells[slot]
  found : ∀ point, (∃ cell, board.cellAt point = some cell) ↔
    (0 ≤ point.x.toInt ∧ point.x.toInt < board.size) ∧
      0 ≤ point.y.toInt ∧ point.y.toInt < board.size
  distinct : ∀ a b slot, board.slot? a = some slot → board.slot? b = some slot → a = b
  covered : ∀ slot < board.cells.size, ∃ point, board.slot? point = some slot
  outside : ∀ point, board.isOutside point = true →
    board.isWall point = true ∧ board.isFinish point = false
  finish : ∀ point, board.isFinish point = true → board.isWall point = false
  hasFinish : board.hasFinish = true ↔ ∃ point, board.isFinish point = true

variable {board : Board} {point : Point} {slot : Nat}

/-- A slot is that of the point whose row and column it is made of. -/
theorem slot?_eq_some_iff :
    board.slot? point = some slot ↔
      slot < board.size * board.size ∧ point.x.toInt = (slot % board.size : Nat) ∧
        point.y.toInt = (slot / board.size : Nat) := by
  constructor
  · intro found
    have stored := lt_size_of_slot? found
    rw [board.cells_size] at stored
    rw [slot?] at found
    split at found
    case isFalse => cases found
    case isTrue inside =>
      obtain ⟨left, right, top, bottom⟩ := inside
      have sum : point.x.toInt.toNat + board.size * point.y.toInt.toNat = slot := by
        rw [← Option.some.inj found, Nat.mul_comm, Nat.add_comm]
      have column : point.x.toInt.toNat < board.size := by omega
      obtain ⟨quotient, remainder⟩ :=
        (Nat.div_mod_unique (Nat.zero_lt_of_lt column)).mpr ⟨sum, column⟩
      refine ⟨stored, ?_, ?_⟩
      · rw [remainder, Int.toNat_of_nonneg left]
      · rw [quotient, Int.toNat_of_nonneg top]
  · rintro ⟨stored, column, row⟩
    have size : 0 < board.size := Nat.pos_of_mul_pos_right (Nat.zero_lt_of_lt stored)
    have right : slot % board.size < board.size := Nat.mod_lt slot size
    have bottom : slot / board.size < board.size := Nat.div_lt_of_lt_mul stored
    have inside : 0 ≤ ((slot % board.size : Nat) : Int) ∧
        ((slot % board.size : Nat) : Int) < board.size ∧
          0 ≤ ((slot / board.size : Nat) : Int) ∧ ((slot / board.size : Nat) : Int) < board.size :=
      ⟨Int.natCast_nonneg _, Int.ofNat_lt.mpr right, Int.natCast_nonneg _, Int.ofNat_lt.mpr bottom⟩
    rw [slot?, column, row, if_pos inside, Int.toNat_natCast, Int.toNat_natCast, Nat.mul_comm,
      Nat.div_add_mod]

theorem eq_of_slot?_eq {a b : Point} (ha : board.slot? a = some slot)
    (hb : board.slot? b = some slot) : a = b := by
  obtain ⟨-, columnA, rowA⟩ := slot?_eq_some_iff.mp ha
  obtain ⟨-, columnB, rowB⟩ := slot?_eq_some_iff.mp hb
  exact Point.eq_of_toInt_eq (columnA.trans columnB.symm) (rowA.trans rowB.symm)

theorem size_lt_of_count (count : board.cells.size < 2 ^ 64) : board.size < 2 ^ 32 := by
  rw [board.cells_size] at count
  exact Nat.mul_self_lt_mul_self_iff.mp (Nat.lt_of_lt_of_eq count (by decide))

/-- Every slot is that of a point, if there are no more slots than a word can tell apart. -/
theorem exists_slot? (count : board.cells.size < 2 ^ 64) (stored : slot < board.cells.size) :
    ∃ point, board.slot? point = some slot := by
  have narrow := size_lt_of_count count
  rw [board.cells_size] at stored
  have size : 0 < board.size := Nat.pos_of_mul_pos_right (Nat.zero_lt_of_lt stored)
  have right : slot % board.size < board.size := Nat.mod_lt slot size
  have bottom : slot / board.size < board.size := Nat.div_lt_of_lt_mul stored
  refine ⟨⟨.ofNat (slot % board.size), .ofNat (slot / board.size)⟩, ?_⟩
  refine slot?_eq_some_iff.mpr ⟨stored, ?_, ?_⟩
  · exact Int64.toInt_ofNat_of_lt (by omega)
  · exact Int64.toInt_ofNat_of_lt (by omega)

theorem cellAt_of_slot? (found : board.slot? point = some slot) :
    ∃ inside : slot < board.cells.size, board.cellAt point = some board.cells[slot] := by
  have stored := lt_size_of_slot? found
  refine ⟨stored, ?_⟩
  rw [cellAt, found]
  exact Array.getElem?_eq_getElem stored

theorem exists_cellAt_iff :
    (∃ cell, board.cellAt point = some cell) ↔ board.isOutside point = false := by
  rw [← Option.ne_none_iff_exists', Ne, cellAt_eq_none_iff, Bool.not_eq_true]

theorem isFinish_iff : board.isFinish point = true ↔ board.cellAt point = some .finish :=
  decide_eq_true_iff

theorem isFinish_of_isOutside (outside : board.isOutside point = true) :
    board.isFinish point = false := by
  rw [isFinish, cellAt_eq_none_iff.mpr outside]
  rfl

theorem isWall_of_isFinish (finish : board.isFinish point = true) :
    board.isWall point = false := by
  rw [isWall, isFinish_iff.mp finish]
  rfl

/-- A board has a finish exactly if one can be looked up. -/
theorem hasFinish_iff (count : board.cells.size < 2 ^ 64) :
    board.hasFinish = true ↔ ∃ point, board.isFinish point = true := by
  rw [hasFinish, Array.contains_iff_mem, Array.mem_iff_getElem]
  constructor
  · rintro ⟨slot, stored, finish⟩
    obtain ⟨point, found⟩ := exists_slot? count stored
    obtain ⟨_, cell⟩ := cellAt_of_slot? found
    exact ⟨point, isFinish_iff.mpr (finish ▸ cell)⟩
  · rintro ⟨point, finish⟩
    rw [isFinish_iff, cellAt] at finish
    split at finish
    case h_1 slot found =>
      obtain ⟨stored, cell⟩ := Array.getElem?_eq_some_iff.mp finish
      exact ⟨slot, stored, cell⟩
    case h_2 => cases finish

theorem indexed_of_count (count : board.cells.size < 2 ^ 64) : board.Indexed where
  count := board.cells_size
  slot := by
    intro point slot found
    have stored := lt_size_of_slot? found
    refine ⟨?_, Nat.lt_trans stored count, cellAt_of_slot? found⟩
    rw [slot?] at found
    split at found
    case isTrue => exact (Option.some.inj found).symm
    case isFalse => cases found
  found := by
    intro point
    rw [exists_cellAt_iff, isOutside_eq_false_iff, and_assoc]
  distinct := fun _ _ _ => eq_of_slot?_eq
  covered := fun _ => exists_slot? count
  outside := fun _ outside => ⟨isWall_of_isOutside outside, isFinish_of_isOutside outside⟩
  finish := fun _ => isWall_of_isFinish
  hasFinish := hasFinish_iff count

/-- However a board was made, its slots are those of the points in its square, one each, and its
answers about walls and finishes never disagree. It is as wide as what it was made of, and the cells
of a board made of rows are where the rows have them. The cells of a board are counted by a machine
word. -/
theorem boards_answer_by_slot :
    (∀ size, size * size < 2 ^ 64 → (blank size).size = size ∧ (blank size).Indexed) ∧
    (∀ rows board, ofRows rows = .ok board → board.cells.size < 2 ^ 64 →
      board.size = rows.length ∧ board.Indexed ∧
        ∀ (point : Point) (x y : Nat), point.x.toInt = x → point.y.toInt = y →
          x < rows.length → y < rows.length →
            ∃ row cell, rows[y]? = some row ∧ row[x]? = some cell ∧
              board.cellAt point = some cell) ∧
    ∀ text board, ofText text = .ok board → board.cells.size < 2 ^ 64 →
      board.size = (drawn (Text.layoutLines text.toList)).length ∧ board.Indexed := by
  refine ⟨?_, ?_, ?_⟩
  · intro size count
    refine ⟨rfl, indexed_of_count ?_⟩
    rw [(blank size).cells_size]
    exact count
  · intro rows board made count
    obtain ⟨-, shown⟩ := ofRows_eq_ok_iff.mp made
    have size : rows.length = board.size := by rw [← shown, length_rows]
    refine ⟨size.symm, indexed_of_count count, ?_⟩
    intro point x y column line width height
    rw [← shown]
    exact exists_cell column line ⟨size ▸ width, size ▸ height⟩
  · intro text board read count
    obtain ⟨-, shown⟩ := ofText_eq_ok_iff_drawn.mp read
    exact ⟨(drawnBy_of_map shown).size, indexed_of_count count⟩

/-- Four cells in two rows, given as such or drawn, and as many empty ones. -/
theorem small_boards_answer :
    let rows : List (List Cell) := [[.empty, .wall], [.finish, .empty]]
    let board : Board := ⟨2, #[.empty, .wall, .finish, .empty], rfl⟩
    (2 * 2 < 2 ^ 64 ∧ (blank 2).Indexed) ∧
    (ofRows rows = .ok board ∧ board.Indexed ∧ board.cellAt ⟨0, 1⟩ = some .finish) ∧
    ofText "o+\n\nxo\n" = .ok board ∧
      board.size = (drawn (Text.layoutLines "o+\n\nxo\n".toList)).length := by
  intro rows board
  obtain ⟨empty, given, shown⟩ := boards_answer_by_slot
  have made : ofRows rows = .ok board := rfl
  have read : ofText "o+\n\nxo\n" = .ok board := rfl
  obtain ⟨-, indexed, cells⟩ := given rows board made (by decide)
  obtain ⟨_, cell, ⟨⟩, ⟨⟩, found⟩ := cells ⟨0, 1⟩ 0 1 rfl rfl (by decide) (by decide)
  exact ⟨⟨by decide, (empty 2 (by decide)).2⟩, ⟨made, indexed, found⟩, read,
    (shown _ board read (by decide)).1⟩

end Boardwalk.Board
