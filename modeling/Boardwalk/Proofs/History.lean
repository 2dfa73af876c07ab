import Boardwalk.Proofs.Replay
import Boardwalk.Run.Operation
import Mathlib.Data.List.Chain
import Mathlib.Logic.Relation

/-!
# What the histories of a walker tell

Whatever is done to a walker comes down to three changes: it turns, an entry is added
to its record, or it goes to a point that nothing keeps it from. Both histories only
grow under each of them, and the points visited stay a walk on open cells that ends
where the walker stands. The corner that a walker starts from is never looked at, so
nothing is said about the cell there.
-/
namespace Boardwalk

namespace Walker

/-- What can be done to a walker at once. -/
inductive Change (board : Board) (walker : Walker) : Walker → Prop
  | turned (side : Side) : Change board walker (walker.turn side)
  | recorded (entry : String) : Change board walker (walker.record entry)
  | moved {steps : Int64} : walker.blocked? board steps = none →
      Change board walker (walker.goTo (walker.ahead steps))

abbrev Changes (board : Board) : Walker → Walker → Prop := Relation.ReflTransGen (Change board)

/-- The histories of the second walker begin with those of the first. -/
structure Continues (a b : Walker) : Prop where
  moves : a.moves.toList <+: b.moves.toList
  visited : a.visited.toList <+: b.visited.toList

/-- The points visited lead from the corner to where the walker stands, over open cells and
straight from each to the next. -/
structure Sound (board : Board) (walker : Walker) : Prop where
  first : walker.visited.toList.head? = some .origin
  last : walker.visited.toList.getLast? = some walker.position
  free : ∀ point ∈ walker.visited.toList.tail,
    board.isOutside point = false ∧ board.isWall point = false
  straight : walker.visited.toList.IsChain fun a b => a.x = b.x ∨ a.y = b.y

variable {board : Board}

theorem blocked?_eq_none_iff {walker : Walker} {steps : Int64} :
    walker.blocked? board steps = none ↔
      board.isOutside (walker.ahead steps) = false ∧ board.isWall (walker.ahead steps) = false := by
  unfold blocked? obstacle?
  cases board.isOutside (walker.ahead steps) <;> cases board.isWall (walker.ahead steps) <;> simp

theorem Continues.refl (walker : Walker) : Continues walker walker :=
  ⟨List.prefix_refl _, List.prefix_refl _⟩

theorem Continues.trans {a b c : Walker} (ab : Continues a b) (bc : Continues b c) :
    Continues a c :=
  ⟨ab.moves.trans bc.moves, ab.visited.trans bc.visited⟩

theorem Change.continues {a b : Walker} (h : Change board a b) : Continues a b := by
  cases h with
  | turned side => exact ⟨List.prefix_refl _, List.prefix_refl _⟩
  | recorded entry =>
      refine ⟨?_, List.prefix_refl _⟩
      rw [moves_record, Array.toList_push]
      exact List.prefix_append _ _
  | moved free =>
      refine ⟨List.prefix_refl _, ?_⟩
      rw [visited_goTo, Array.toList_push]
      exact List.prefix_append _ _

/-- Histories never lose an entry. -/
theorem Changes.continues {a b : Walker} (h : Changes board a b) : Continues a b := by
  induction h with
  | refl => exact .refl a
  | tail changes change ih => exact ih.trans change.continues

theorem sound_fresh (board : Board) : Sound board fresh where
  first := rfl
  last := rfl
  free := fun _ member => absurd member List.not_mem_nil
  straight := .singleton _

theorem Sound.goTo {walker : Walker} (h : Sound board walker) {steps : Int64}
    (free : walker.blocked? board steps = none) :
    Sound board (walker.goTo (walker.ahead steps)) := by
  have grown : (walker.goTo (walker.ahead steps)).visited.toList =
      walker.visited.toList ++ [walker.ahead steps] := by
    rw [visited_goTo, Array.toList_push]
  have nonempty : walker.visited.toList ≠ [] := by
    intro empty
    have first := h.first
    rw [empty] at first
    cases first
  constructor
  · rw [grown, List.head?_append, h.first, Option.some_or]
  · rw [grown, List.getLast?_concat, position_goTo]
  · intro point member
    rw [grown, List.tail_append_of_ne_nil nonempty] at member
    rcases List.mem_append.mp member with earlier | new
    · exact h.free point earlier
    · rw [List.mem_singleton.mp new]
      exact blocked?_eq_none_iff.mp free
  · rw [grown]
    refine h.straight.append (.singleton _) ?_
    -- The last point before the move is where the walker stood, and a heading leads straight on.
    intro before last target new
    rw [h.last] at last
    cases last
    cases new
    exact Point.along_straight walker.position walker.heading steps

theorem Sound.change {a b : Walker} (h : Sound board a) (change : Change board a b) :
    Sound board b := by
  cases change with
  | turned side => exact ⟨h.first, h.last, h.free, h.straight⟩
  | recorded entry => exact ⟨h.first, h.last, h.free, h.straight⟩
  | moved free => exact h.goTo free

theorem Sound.changes {a b : Walker} (h : Sound board a) (changes : Changes board a b) :
    Sound board b := by
  induction changes with
  | refl => exact h
  | tail earlier change ih => exact ih.change change

theorem changes_of_perform? {walker next : Walker} {action : Action}
    (h : walker.perform? board action = some next) : Changes board walker next := by
  cases action with
  | turn side =>
      rw [perform?_turn] at h
      cases h
      exact .tail (.single (.turned side)) (.recorded _)
  | move amount =>
      rw [perform?_move] at h
      split at h
      case h_1 => cases h
      case h_2 free =>
        cases h
        exact .tail (.single (.moved free)) (.recorded _)

theorem changes_of_performAll? {walker next : Walker} {actions : List Action}
    (h : walker.performAll? board actions = some next) : Changes board walker next := by
  induction actions generalizing walker with
  | nil =>
      cases h
      exact .refl
  | cons action actions ih =>
      obtain ⟨middle, first, rest⟩ := Option.bind_eq_some_iff.mp h
      exact (changes_of_perform? first).trans (ih rest)

end Walker

theorem Machine.Reaches.changes {board : Board} {limits : Limits} {a b : Machine}
    (h : Reaches board limits a b) : Walker.Changes board a.walker b.walker := by
  obtain ⟨actions, stretch⟩ := h
  exact Walker.changes_of_performAll? stretch.performAll?

theorem Program.changes_run (board : Board) (limits : Limits) (program : Program)
    (walker : Walker) :
    Walker.Changes board walker (program.run board limits walker).machine.walker := by
  obtain ⟨actions, -, performed⟩ := exists_actions_of_run board limits program walker
  exact Walker.changes_of_performAll? performed

/-- An operation changes a walker step by step, whether or not it ends in a fault. -/
theorem Operation.changes_apply (board : Board) (walker : Walker) (operation : Operation) :
    Walker.Changes board walker (operation.apply board walker).1 := by
  cases operation with
  | move steps =>
      rw [apply_move, Walker.advance]
      cases free : walker.blocked? board steps with
      | none => exact .single (.moved free)
      | some fault => exact .refl
  | turn side => exact .single (.turned side)
  | record entry => exact .single (.recorded entry)
  | single command =>
      have reached : Machine.Reaches board .standard (Machine.ofWalker walker) _ :=
        Machine.reaches_exec command (Machine.ofWalker walker)
      exact reached.changes
  | execute program => exact program.changes_run board .standard walker
  | run limits program => exact program.changes_run board limits walker

namespace Walker

theorem changes_after (board : Board) (walker : Walker) (operations : List Operation) :
    Changes board walker (walker.after board operations) := by
  induction operations generalizing walker with
  | nil => exact .refl
  | cons operation operations ih =>
      exact (operation.changes_apply board walker).trans (ih (operation.apply board walker).1)

/-- After any operations on a fresh walker the points it visited are sound, every further operation
continues its histories, and it is on a finish exactly if the last point it visited is one. -/
theorem histories_after_operations (board : Board) (operations : List Operation) :
    let walker := fresh.after board operations
    Sound board walker ∧
      (∀ operation : Operation, Continues walker (operation.apply board walker).1) ∧
      (walker.onFinish board = true ↔ ∃ point,
        walker.visited.toList.getLast? = some point ∧ board.cellAt point = some .finish) ∧
      (Trace.capture board walker).reachedFinish = walker.onFinish board := by
  intro walker
  have sound : Sound board walker :=
    (sound_fresh board).changes (changes_after board fresh operations)
  refine ⟨sound, ?_, ?_, rfl⟩
  · intro operation
    exact Changes.continues (operation.changes_apply board walker)
  · rw [sound.last, onFinish, Board.isFinish, decide_eq_true_eq]
    constructor
    · intro finish
      exact ⟨walker.position, rfl, finish⟩
    · rintro ⟨point, same, finish⟩
      cases same
      exact finish

end Walker
end Boardwalk
