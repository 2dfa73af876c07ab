import Boardwalk.Proofs.Faults
import Boardwalk.Proofs.WallWalk
import Mathlib.Algebra.Order.Ring.Int

/-!
# Moves land where they should

A move multiplies and then adds, and each of the two stops at an end of the range of
coordinates. That the result is the exact place, or the nearest point to it, is not
true of any two numbers: it holds because a walker never has a negative coordinate. On
a board whose columns can be counted by coordinates the ends of the range are off the
board, so a move that was stopped there is refused.
-/
namespace Boardwalk

structure Place where
  x : Int
  y : Int

structure Place.Within (board : Board) (place : Place) : Prop where
  column : 0 ≤ place.x ∧ place.x < board.size
  row : 0 ≤ place.y ∧ place.y < board.size

namespace Point

structure At (point : Point) (place : Place) : Prop where
  x : point.x.toInt = place.x
  y : point.y.toInt = place.y

/-- The coordinates of a point are those of a place, stopped at the ends of their range. -/
structure Nearest (point : Point) (place : Place) : Prop where
  x : point.x.toInt = max (-2 ^ 63) (min place.x (2 ^ 63 - 1))
  y : point.y.toInt = max (-2 ^ 63) (min place.y (2 ^ 63 - 1))

end Point

def Board.WallAt (board : Board) (place : Place) : Prop :=
  ∃ point : Point, point.At place ∧ board.cellAt point = some .wall

namespace Walker

def aim (walker : Walker) (steps : Int64) : Place where
  x := walker.position.x.toInt + steps.toInt * walker.heading.delta.x.toInt
  y := walker.position.y.toInt + steps.toInt * walker.heading.delta.y.toInt

/-- What comes of a move to a place: the walker goes exactly there, or it stays as it is. -/
inductive Lands (board : Board) (walker : Walker) (place : Place) : Walker × Option Fault → Prop
  | moved {target : Point} : place.Within board → ¬ board.WallAt place → target.At place →
      Lands board walker place
        (⟨⟨target, walker.heading⟩, walker.moves, walker.visited.push target⟩, none)
  | offBoard {target : Point} : ¬ place.Within board → target.Nearest place →
      Lands board walker place (walker, some ⟨.offBoard target, walker.toStance⟩)
  | wall {target : Point} : place.Within board → board.WallAt place → target.At place →
      Lands board walker place (walker, some ⟨.wall target, walker.toStance⟩)

end Walker

variable {board : Board} {place : Place}

/-- A step along a coordinate that is not negative is stopped at most once. The product alone is
stopped at the upper end, where the exact sum would be too. -/
theorem toInt_boundedAdd_boundedMul {delta x steps : Int64}
    (unit : delta.toInt = -1 ∨ delta.toInt = 0 ∨ delta.toInt = 1) (low : 0 ≤ x.toInt) :
    (boundedAdd x (boundedMul delta steps)).toInt =
      max (-2 ^ 63) (min (x.toInt + steps.toInt * delta.toInt) (2 ^ 63 - 1)) := by
  have least : -2 ^ 63 ≤ steps.toInt := Int64.le_toInt steps
  have most : steps.toInt < 2 ^ 63 := Int64.toInt_lt steps
  rw [toInt_boundedAdd, toInt_boundedMul, Int64.toInt_minValue, Int64.toInt_maxValue]
  rcases unit with back | still | on
  · rw [back]
    omega
  · rw [still]
    omega
  · rw [on]
    omega

namespace Point

theorem At.unique {a b : Point} (ha : a.At place) (hb : b.At place) : a = b :=
  eq_of_toInt_eq (ha.x.trans hb.x.symm) (ha.y.trans hb.y.symm)

theorem Nearest.unique {a b : Point} (ha : a.Nearest place) (hb : b.Nearest place) : a = b :=
  eq_of_toInt_eq (ha.x.trans hb.x.symm) (ha.y.trans hb.y.symm)

/-- The nearest point to a place is on the board only if the place is. -/
theorem Nearest.isOutside_eq_false_iff {point : Point} (near : point.Nearest place)
    (size : board.size < 2 ^ 63) : board.isOutside point = false ↔ place.Within board := by
  have x := near.x
  have y := near.y
  rw [Board.isOutside_eq_false_iff]
  constructor
  · rintro ⟨left, right, top, bottom⟩
    exact ⟨by omega, by omega⟩
  · rintro ⟨column, row⟩
    omega

theorem Nearest.at_of_within {point : Point} (near : point.Nearest place)
    (size : board.size < 2 ^ 63) (within : place.Within board) : point.At place := by
  have x := near.x
  have y := near.y
  have column := within.column
  have row := within.row
  exact ⟨by omega, by omega⟩

end Point

namespace Walker

variable {walker : Walker} {steps : Int64}

theorem Sound.position_nonneg (sound : Sound board walker) :
    0 ≤ walker.position.x.toInt ∧ 0 ≤ walker.position.y.toInt := by
  rcases sound.position_eq_or with corner | inside
  · rw [corner]
    decide
  · obtain ⟨left, -, top, -⟩ := Board.isOutside_eq_false_iff.mp inside
    exact ⟨left, top⟩

theorem Sound.ahead_nearest (sound : Sound board walker) (steps : Int64) :
    (walker.ahead steps).Nearest (walker.aim steps) where
  x := toInt_boundedAdd_boundedMul walker.heading.unit_delta.1 sound.position_nonneg.1
  y := toInt_boundedAdd_boundedMul walker.heading.unit_delta.2 sound.position_nonneg.2

theorem Lands.unique {a b : Walker × Option Fault} (ha : Lands board walker place a)
    (hb : Lands board walker place b) : a = b := by
  cases ha with
  | moved within free here =>
      cases hb with
      | moved _ _ there => rw [here.unique there]
      | offBoard outside => exact absurd within outside
      | wall _ wall => exact absurd wall free
  | offBoard outside near =>
      cases hb with
      | moved within => exact absurd within outside
      | offBoard _ other => rw [near.unique other]
      | wall within => exact absurd within outside
  | wall within wall here =>
      cases hb with
      | moved _ free => exact absurd wall free
      | offBoard outside => exact absurd within outside
      | wall _ _ there => rw [here.unique there]

theorem apply_move_of_blocked {fault : Fault} (blocked : walker.blocked? board steps = some fault) :
    (Operation.move steps).apply board walker = (walker, some fault) := by
  rw [Operation.apply_move, advance, blocked]

theorem apply_move_of_free (free : walker.blocked? board steps = none) :
    (Operation.move steps).apply board walker = (walker.goTo (walker.ahead steps), none) := by
  rw [Operation.apply_move, advance, free]

theorem lands_move (near : (walker.ahead steps).Nearest place) (size : board.size < 2 ^ 63) :
    Lands board walker place ((Operation.move steps).apply board walker) := by
  have inside := near.isOutside_eq_false_iff size
  cases outside : board.isOutside (walker.ahead steps) with
  | true =>
      have blocked : walker.blocked? board steps =
          some ⟨.offBoard (walker.ahead steps), walker.toStance⟩ := by
        unfold blocked? obstacle?
        rw [outside]
        rfl
      rw [apply_move_of_blocked blocked]
      refine .offBoard ?_ near
      intro within
      cases outside.symm.trans (inside.mpr within)
  | false =>
      have within := inside.mp outside
      have here := near.at_of_within size within
      cases wall : board.isWall (walker.ahead steps) with
      | true =>
          have blocked : walker.blocked? board steps =
              some ⟨.wall (walker.ahead steps), walker.toStance⟩ := by
            unfold blocked? obstacle?
            rw [outside, wall]
            rfl
          rw [apply_move_of_blocked blocked]
          exact .wall within ⟨walker.ahead steps, here, Board.cellAt_eq_wall outside wall⟩ here
      | false =>
          rw [apply_move_of_free (blocked?_eq_none_iff.mpr ⟨outside, wall⟩)]
          refine .moved within ?_ here
          rintro ⟨point, there, cell⟩
          rw [there.unique here] at cell
          rw [Board.isWall, cell] at wall
          cases wall

/-- From any walker that operations on a fresh one lead to, the point ahead is the nearest to the
exact place, and a move of any number of steps lands exactly there, or it is refused for what is
there and changes nothing. -/
theorem moves_land_exactly (board : Board) (size : board.size < 2 ^ 63)
    (operations : List Operation) (steps : Int64) :
    let walker := fresh.after board operations
    (walker.ahead steps).Nearest (walker.aim steps) ∧
      ∀ result, (Operation.move steps).apply board walker = result ↔
        walker.Lands board (walker.aim steps) result := by
  intro walker
  have sound : Sound board walker :=
    (sound_fresh board).changes (changes_after board fresh operations)
  have near := sound.ahead_nearest steps
  refine ⟨near, fun result => ⟨?_, (lands_move near size).unique⟩⟩
  rintro rfl
  exact lands_move near size

/-- The least number of steps has no opposite. Going back so far from the corner is refused at the
greatest coordinate, and shorter moves on the same board end at a wall or where they should. -/
theorem move_back_too_far :
    let board : Board := ⟨2, #[.empty, .wall, .finish, .empty], rfl⟩
    let west := fresh.after board [.turn .right, .turn .right]
    let south := fresh.after board [.turn .right]
    board.size < 2 ^ 63 ∧
    (Operation.move Int64.minValue).apply board west =
      (west, some ⟨.offBoard ⟨Int64.maxValue, 0⟩, west.toStance⟩) ∧
    (Operation.move 1).apply board fresh = (fresh, some ⟨.wall ⟨1, 0⟩, fresh.toStance⟩) ∧
    (Operation.move 1).apply board south =
      (⟨⟨⟨0, 1⟩, .south⟩, #[], #[.origin, ⟨0, 1⟩]⟩, none) := by
  intro board west south
  have size : board.size < 2 ^ 63 := by decide
  have law := moves_land_exactly board size
  refine ⟨size, ?_, ?_, ?_⟩
  · refine ((law [.turn .right, .turn .right] Int64.minValue).2 _).mpr (.offBoard ?_ ⟨?_, ?_⟩)
    · rintro ⟨column, -⟩
      exact absurd column.2 (by decide)
    · decide
    · decide
  · refine ((law [] 1).2 _).mpr (.wall ⟨by decide, by decide⟩ ?_ ⟨by decide, by decide⟩)
    exact ⟨⟨1, 0⟩, ⟨by decide, by decide⟩, by decide⟩
  · have here : (⟨0, 1⟩ : Point).At (south.aim 1) := ⟨by decide, by decide⟩
    refine ((law [.turn .right] 1).2 _).mpr (.moved ⟨by decide, by decide⟩ ?_ here)
    rintro ⟨point, there, cell⟩
    rw [there.unique here] at cell
    exact absurd cell (by decide)

end Walker
end Boardwalk
