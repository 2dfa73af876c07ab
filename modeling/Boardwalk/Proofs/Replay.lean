import Boardwalk.Proofs.Parsing
import Boardwalk.Proofs.Stretch
import Boardwalk.Run.Trace

/-!
# The record of a run is a program

Everything that a run does to its walker is a list of actions, and the record holds
these actions in words. So the record can be read as a program, and that program
walks the same way, takes no more steps than the run took, and meets no fault even
if the run did: the action that failed is not in the record.
-/
namespace Boardwalk

namespace Walker

/-- The walker after an action, if nothing is in its way. -/
def perform? (board : Board) (walker : Walker) (action : Action) : Option Walker :=
  match action with
  | .turn side => some ((walker.turn side).record action.text)
  | .move amount =>
    match walker.blocked? board amount with
    | some _ => none
    | none => some ((walker.goTo (walker.ahead amount)).record action.text)

def performAll? (board : Board) (walker : Walker) : List Action → Option Walker
  | [] => some walker
  | action :: actions => (walker.perform? board action).bind fun next => next.performAll? board actions

variable {board : Board}

theorem performAll?_append (walker : Walker) (a b : List Action) :
    walker.performAll? board (a ++ b) =
      (walker.performAll? board a).bind fun next => next.performAll? board b := by
  induction a generalizing walker with
  | nil => rfl
  | cons action a ih =>
      rw [List.cons_append, performAll?, performAll?, Option.bind_assoc]
      congr 1
      funext next
      exact ih next

theorem perform?_turn (walker : Walker) (side : Side) :
    walker.perform? board (.turn side) =
      some ((walker.turn side).record (Action.turn side).text) := by
  rfl

theorem perform?_move (walker : Walker) (amount : Int64) :
    walker.perform? board (.move amount) =
      match walker.blocked? board amount with
      | some _ => none
      | none => some ((walker.goTo (walker.ahead amount)).record (Action.move amount).text) := by
  rfl

theorem moves_of_perform? {walker next : Walker} {action : Action}
    (h : walker.perform? board action = some next) :
    next.moves.toList = walker.moves.toList ++ [action.text] := by
  cases action with
  | turn side =>
      rw [perform?_turn] at h
      cases h
      exact Array.toList_push
  | move amount =>
      rw [perform?_move] at h
      split at h
      case h_1 => cases h
      case h_2 =>
        cases h
        exact Array.toList_push

/-- The record grows by the words of the actions, in order. -/
theorem moves_of_performAll? {walker next : Walker} {actions : List Action}
    (h : walker.performAll? board actions = some next) :
    next.moves.toList = walker.moves.toList ++ actions.map Action.text := by
  induction actions generalizing walker with
  | nil =>
      cases h
      rw [List.map_nil, List.append_nil]
  | cons action actions ih =>
      obtain ⟨middle, first, rest⟩ := Option.bind_eq_some_iff.mp h
      rw [ih rest, moves_of_perform? first, List.append_assoc, List.map_cons, List.singleton_append]

end Walker

namespace Machine

variable {board : Board} {limits : Limits}

theorem perform?_of_act_done {machine next : Machine} {action : Action}
    (h : machine.act board action = .done next) :
    machine.walker.perform? board action = some next.walker ∧ next.steps = machine.steps := by
  cases action with
  | turn side =>
      rw [act_turn] at h
      cases h
      exact ⟨Walker.perform?_turn machine.walker side, rfl⟩
  | move amount =>
      rw [act_move] at h
      split at h
      case h_1 => cases h
      case h_2 free =>
        cases h
        exact ⟨by rw [Walker.perform?_move, free], rfl⟩

theorem act_of_perform? {machine : Machine} {action : Action} {walker : Walker}
    (h : machine.walker.perform? board action = some walker) :
    ∃ next, machine.act board action = .done next ∧ next.walker = walker ∧
      next.steps = machine.steps := by
  cases action with
  | turn side =>
      rw [Walker.perform?_turn] at h
      cases h
      exact ⟨_, act_turn machine side, rfl, rfl⟩
  | move amount =>
      have acted := @act_move board machine amount
      rw [Walker.perform?_move] at h
      split at h
      case h_1 => cases h
      case h_2 free =>
        cases h
        rw [free] at acted
        exact ⟨_, acted, rfl, rfl⟩

theorem Step.performAll? {a b : Machine} {actions : List Action}
    (h : Step board limits a actions b) : a.walker.performAll? board actions = some b.walker := by
  cases h with
  | tick ticked =>
      obtain ⟨-, rfl⟩ := tick_eq_done_iff.mp ticked
      rfl
  | act ticked acted =>
      obtain ⟨-, rfl⟩ := tick_eq_done_iff.mp ticked
      rw [Walker.performAll?, (perform?_of_act_done acted).1]
      rfl
  | leftBetween => rfl
  | leftMidPass => rfl

theorem Stretch.performAll? {a b : Machine} {actions : List Action}
    (h : Stretch board limits a actions b) :
    a.walker.performAll? board actions = some b.walker := by
  induction h with
  | refl => rfl
  | tail stretch step ih =>
      rw [Walker.performAll?_append, ih, Option.bind_some]
      exact step.performAll?

theorem Step.steps_bounds {a b : Machine} {actions : List Action}
    (h : Step board limits a actions b) (start : a.steps ≤ limits.steps) :
    a.steps + actions.length ≤ b.steps ∧ b.steps ≤ limits.steps := by
  cases h with
  | tick ticked =>
      obtain ⟨free, rfl⟩ := tick_eq_done_iff.mp ticked
      exact ⟨Nat.le_succ _, Nat.lt_of_le_of_ne start free⟩
  | act ticked acted =>
      obtain ⟨free, rfl⟩ := tick_eq_done_iff.mp ticked
      rw [(perform?_of_act_done acted).2]
      exact ⟨Nat.le_refl _, Nat.lt_of_le_of_ne start free⟩
  | leftBetween => exact ⟨Nat.le_refl _, start⟩
  | leftMidPass => exact ⟨Nat.le_refl _, start⟩

/-- Every action costs a step, and the steps never go over their limit. -/
theorem Stretch.steps_bounds {a b : Machine} {actions : List Action}
    (h : Stretch board limits a actions b) (start : a.steps ≤ limits.steps) :
    a.steps + actions.length ≤ b.steps ∧ b.steps ≤ limits.steps := by
  induction h with
  | refl => exact ⟨Nat.le_refl _, start⟩
  | tail stretch step ih =>
      have after := step.steps_bounds ih.2
      rw [List.length_append]
      exact ⟨by omega, after.2⟩

/-- Actions that can be performed are carried out as a program, one step for each. -/
theorem execBlock_of_performAll? {machine : Machine} {actions : List Action} {walker : Walker}
    (performed : machine.walker.performAll? board actions = some walker)
    (enough : machine.steps + actions.length ≤ limits.steps) :
    ∃ next, execBlock board limits (actions.map .act) machine = .done next ∧
      next.walker = walker := by
  induction actions generalizing machine with
  | nil => exact ⟨machine, rfl, Option.some.inj performed⟩
  | cons action actions ih =>
      obtain ⟨middle, first, rest⟩ := Option.bind_eq_some_iff.mp performed
      rw [List.length_cons] at enough
      obtain ⟨ticked, tick, walker', steps'⟩ : ∃ ticked, machine.tick limits = .done ticked ∧
          ticked.walker = machine.walker ∧ ticked.steps = machine.steps + 1 :=
        ⟨_, tick_eq_done_iff.mpr ⟨by omega, rfl⟩, rfl, rfl⟩
      -- Counting the step leaves the walker alone, so the action can still be performed.
      rw [← walker'] at first
      obtain ⟨acted, done, rfl, steps⟩ := act_of_perform? first
      obtain ⟨next, finished, same⟩ := ih rest (by omega)
      refine ⟨next, ?_, same⟩
      rw [List.map_cons, execBlock, exec, tick, Progress.andThen_done, done, Progress.andThen_done]
      exact finished

end Machine

namespace Program

theorem listing_map_act (actions : List Action) :
    listing (actions.map .act) = actions.map fun action => (0, .act action) := by
  rw [listing]
  induction actions with
  | nil => rfl
  | cons action actions ih =>
      rw [List.map_cons, blockListing, ih]
      rfl

theorem line_act (action : Action) : line (0, .act action) = action.text := by
  apply String.toList_injective
  rw [toList_line]
  rfl

/-- The words of actions, one to a line, are cut into the lines of these actions. -/
theorem splitLines_actions (actions : List Action) : ∃ blanks,
    (∀ line ∈ blanks, Text.allBlank line = true) ∧
      Text.splitLines ("\n".intercalate (actions.map Action.text)).toList =
        (listing (actions.map .act)).map (fun entry => (line entry).toList) ++ blanks := by
  have lines : (listing (actions.map .act)).map (fun entry => (line entry).toList) =
      (actions.map Action.text).map String.toList := by
    rw [listing_map_act, List.map_map, List.map_map]
    simp only [Function.comp_def, line_act]
  rw [lines, String.toList_intercalate]
  cases actions with
  | nil => exact ⟨[[]], by decide, rfl⟩
  | cons action actions =>
      have oneLine : ∀ text ∈ ((action :: actions).map Action.text).map String.toList,
          Text.OneLine text := by
        intro text member
        obtain ⟨words, recorded, rfl⟩ := List.mem_map.mp member
        obtain ⟨action, -, rfl⟩ := List.mem_map.mp recorded
        rw [← line_act]
        exact (unbroken_line (0, .act action)).toOneLine
      refine ⟨[], fun line member => absurd member List.not_mem_nil, ?_⟩
      rw [List.append_nil]
      exact Text.splitLines_intercalate oneLine

/-- A record of actions is read as the program of these actions. -/
theorem parseWith_actions (tabWidth : Nat) (actions : List Action) :
    parseWith tabWidth ("\n".intercalate (actions.map Action.text)) = .ok (actions.map .act) := by
  obtain ⟨blanks, blank, cut⟩ := splitLines_actions actions
  exact parseWith_of_printed (Line.ofSource_of_splitLines tabWidth blank cut)

/-- A run does a list of actions to its walker, and has a step for each. -/
theorem exists_actions_of_run (board : Board) (limits : Limits) (program : Program)
    (walker : Walker) : ∃ actions, actions.length ≤ limits.steps ∧
      walker.performAll? board actions = some (program.run board limits walker).machine.walker := by
  have reached : Machine.Reaches board limits (program.starting walker) _ :=
    Machine.reaches_execBlock program (program.starting walker)
  obtain ⟨actions, stretch⟩ := reached
  refine ⟨actions, ?_, ?_⟩
  · have bounds := stretch.steps_bounds (Nat.zero_le limits.steps)
    exact Nat.le_trans (Nat.le_trans (Nat.le_add_left _ _) bounds.1) bounds.2
  · rw [walker_run]
    exact stretch.performAll?

/-- Actions that can be performed run to the end as a program, if there is a step for each. -/
theorem run_of_performAll? {board : Board} {limits : Limits} {actions : List Action}
    {walker next : Walker} (performed : walker.performAll? board actions = some next)
    (enough : actions.length ≤ limits.steps) :
    ∃ machine, run board limits (actions.map .act) walker = .done machine ∧
      machine.walker = next := by
  obtain ⟨machine, finished, same⟩ : ∃ machine, Machine.execBlock board limits (actions.map .act)
      (starting (actions.map .act) walker) = .done machine ∧ machine.walker = next :=
    Machine.execBlock_of_performAll? performed ((Nat.zero_add _).symm ▸ enough)
  have ended := run_eq board limits (actions.map .act) walker
  rw [finished, Progress.andThen_done] at ended
  exact ⟨_, ended, same⟩

/-- The record of a run, whatever ended it, is the text of a program of as many actions. Run within
the same limits, that program goes through and leaves the same trace. -/
theorem record_replays_run (board : Board) (limits : Limits) (program : Program) :
    let walker := (program.run board limits .fresh).machine.walker
    ∃ actions : List Action,
      parse ("\n".intercalate walker.moves.toList) = .ok (actions.map .act) ∧
      actions.length = walker.moves.size ∧ walker.moves.size ≤ limits.steps ∧
      ∃ machine, run board limits (actions.map .act) .fresh = .done machine ∧
        Trace.capture board machine.walker = Trace.capture board walker := by
  intro walker
  obtain ⟨actions, enough, performed⟩ := exists_actions_of_run board limits program .fresh
  have record : walker.moves.toList = actions.map Action.text :=
    Walker.moves_of_performAll? performed
  have size : actions.length = walker.moves.size := by
    rw [← Array.length_toList, record, List.length_map]
  obtain ⟨machine, finished, same⟩ := run_of_performAll? performed enough
  refine ⟨actions, ?_, size, size ▸ enough, machine, finished, ?_⟩
  · rw [record]
    exact parseWith_actions indentWidth actions
  · rw [same]

end Program
end Boardwalk
