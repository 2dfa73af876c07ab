import Boardwalk.Proofs.Stretch
import Boardwalk.Run.Trace

/-!
# What a fault tells about the walker

A fault is made at the command or loop that a run stops at, and every loop around it
hands it on. What it says is still true of the walker when the run is over, because
nothing touches the walker on the way out. A fault is traced back to the headers of the
program; which of several equal moves it came from is not claimed.
-/
namespace Boardwalk

def Program.headers (program : Program) : List Header := program.listing.map Prod.snd

/-- What the cause of a fault says about a walker, if only commands with these headers were run. -/
inductive Cause.Tells (board : Board) (limits : Limits) (headers : List Header) (walker : Walker) :
    Cause → Prop
  | offBoard {steps : Int64} : .act (.move steps) ∈ headers →
      board.isOutside (walker.ahead steps) = true →
      Tells board limits headers walker (.offBoard (walker.ahead steps))
  | wall {steps : Int64} : .act (.move steps) ∈ headers →
      board.cellAt (walker.ahead steps) = some .wall →
      Tells board limits headers walker (.wall (walker.ahead steps))
  | passLimit {condition : Condition} : .loop (.guarded condition) ∈ headers →
      walker.sees board condition = false →
      Tells board limits headers walker (.passLimit condition limits.passes)
  | stepLimit : Tells board limits headers walker (.stepLimit limits.steps)

structure Fault.Describes (board : Board) (limits : Limits) (headers : List Header)
    (fault : Fault) (walker : Walker) : Prop where
  stance : fault.stance = walker.toStance
  cause : fault.cause.Tells board limits headers walker

/-- A stretch that goes through, or stops with a fault that describes its walker. -/
def Progress.Explained (board : Board) (limits : Limits) (headers : List Header) : Progress → Prop
  | .done _ => True
  | .stopped fault machine => fault.Describes board limits headers machine.walker

@[inherit_doc Progress.Explained]
def Pass.Explained (board : Board) (limits : Limits) (headers : List Header) : Pass → Prop
  | .through _ | .satisfied _ => True
  | .stopped fault machine => fault.Describes board limits headers machine.walker

variable {board : Board} {limits : Limits} {headers : List Header}

theorem Progress.Explained.andThen {progress : Progress} {next : Machine → Progress}
    (first : progress.Explained board limits headers)
    (rest : ∀ machine, (next machine).Explained board limits headers) :
    (progress.andThen next).Explained board limits headers := by
  cases progress with
  | done machine => exact rest machine
  | stopped fault machine => exact first

theorem Progress.Explained.intoPass {progress : Progress} {next : Machine → Pass}
    (first : progress.Explained board limits headers)
    (rest : ∀ machine, (next machine).Explained board limits headers) :
    (progress.intoPass next).Explained board limits headers := by
  cases progress with
  | done machine => exact rest machine
  | stopped fault machine => exact first

theorem Pass.Explained.resolve {pass : Pass} {through satisfied : Machine → Progress}
    (first : pass.Explained board limits headers)
    (again : ∀ machine, (through machine).Explained board limits headers)
    (leave : ∀ machine, (satisfied machine).Explained board limits headers) :
    (pass.resolve through satisfied).Explained board limits headers := by
  cases pass with
  | through machine => exact again machine
  | satisfied machine => exact leave machine
  | stopped fault machine => exact first

theorem Board.cellAt_eq_wall {point : Point} (inside : board.isOutside point = false)
    (wall : board.isWall point = true) : board.cellAt point = some .wall := by
  cases cell : board.cellAt point with
  | none =>
      have outside := cellAt_eq_none_iff.mp cell
      rw [inside] at outside
      cases outside
  | some found =>
      rw [isWall, cell] at wall
      exact congrArg some (of_decide_eq_true wall)

theorem Walker.describes_of_blocked? {walker : Walker} {steps : Int64} {fault : Fault}
    (said : .act (.move steps) ∈ headers) (h : walker.blocked? board steps = some fault) :
    fault.Describes board limits headers walker := by
  unfold blocked? obstacle? at h
  cases outside : board.isOutside (walker.ahead steps) with
  | true =>
      rw [outside] at h
      cases h
      exact ⟨rfl, .offBoard said outside⟩
  | false =>
      cases wall : board.isWall (walker.ahead steps) with
      | true =>
          rw [outside, wall] at h
          cases h
          exact ⟨rfl, .wall said (Board.cellAt_eq_wall outside wall)⟩
      | false =>
          rw [outside, wall] at h
          cases h

namespace Machine

theorem explained_tick (machine : Machine) :
    (machine.tick limits).Explained board limits headers := by
  rw [tick]
  split
  · exact ⟨rfl, .stepLimit⟩
  · exact trivial

theorem explained_act (machine : Machine) {action : Action} (said : .act action ∈ headers) :
    (machine.act board action).Explained board limits headers := by
  cases action with
  | turn side =>
      rw [act_turn]
      exact trivial
  | move amount =>
      rw [act_move]
      split
      case h_1 blocked => exact Walker.describes_of_blocked? said blocked
      case h_2 => exact trivial

theorem explained_repeatPass {pass : Machine → Progress}
    (h : ∀ machine, (pass machine).Explained board limits headers) (count : Nat)
    (machine : Machine) : (repeatPass pass count machine).Explained board limits headers := by
  induction count generalizing machine with
  | zero => exact trivial
  | succ count ih => exact (h machine).andThen ih

theorem explained_repeatUntil {condition : Condition} {pass : Machine → Pass}
    (said : .loop (.guarded condition) ∈ headers)
    (h : ∀ machine, (pass machine).Explained board limits headers) (left : Nat)
    (machine : Machine) :
    (repeatUntil board limits condition pass left machine).Explained board limits headers := by
  induction left generalizing machine with
  | zero =>
      cases seen : machine.walker.sees board condition with
      | true =>
          rw [repeatUntil_of_sees seen]
          exact trivial
      | false =>
          rw [repeatUntil_zero seen]
          exact ⟨rfl, .passLimit said seen⟩
  | succ left ih =>
      cases seen : machine.walker.sees board condition with
      | true =>
          rw [repeatUntil_of_sees seen]
          exact trivial
      | false =>
          rw [repeatUntil_succ seen]
          apply (explained_tick machine).andThen
          intro middle
          exact (h middle).resolve ih fun _ => trivial

mutual

theorem explained_exec (command : Command) {depth : Nat}
    (said : ∀ entry ∈ command.listing depth, entry.2 ∈ headers) (machine : Machine) :
    (exec board limits command machine).Explained board limits headers := by
  match command with
  | .act action =>
      apply (explained_tick machine).andThen
      intro middle
      exact explained_act middle (said (depth, .act action) List.mem_cons_self)
  | .loop (.counted times) body =>
      have inner : ∀ entry ∈ blockListing (depth + 1) body, entry.2 ∈ headers :=
        fun entry member => said entry (List.mem_cons_of_mem _ member)
      apply (explained_tick machine).andThen
      apply explained_repeatPass
      intro middle
      exact (explained_tick middle).andThen (explained_execBlock body inner)
  | .loop (.guarded condition) body =>
      have inner : ∀ entry ∈ blockListing (depth + 1) body, entry.2 ∈ headers :=
        fun entry member => said entry (List.mem_cons_of_mem _ member)
      apply (explained_tick machine).andThen
      apply explained_repeatUntil (said (depth, .loop (.guarded condition)) List.mem_cons_self)
      exact explained_watch condition body inner

theorem explained_execBlock (block : List Command) {depth : Nat}
    (said : ∀ entry ∈ blockListing depth block, entry.2 ∈ headers) (machine : Machine) :
    (execBlock board limits block machine).Explained board limits headers := by
  match block with
  | [] => exact trivial
  | command :: rest =>
      have first : ∀ entry ∈ command.listing depth, entry.2 ∈ headers :=
        fun entry member => said entry (List.mem_append_left _ member)
      have later : ∀ entry ∈ blockListing depth rest, entry.2 ∈ headers :=
        fun entry member => said entry (List.mem_append_right _ member)
      exact (explained_exec command first machine).andThen (explained_execBlock rest later)

theorem explained_watch (condition : Condition) (block : List Command) {depth : Nat}
    (said : ∀ entry ∈ blockListing depth block, entry.2 ∈ headers) (machine : Machine) :
    (watch board limits condition block machine).Explained board limits headers := by
  match block with
  | [] => exact trivial
  | command :: rest =>
      have first : ∀ entry ∈ command.listing depth, entry.2 ∈ headers :=
        fun entry member => said entry (List.mem_append_left _ member)
      have later : ∀ entry ∈ blockListing depth rest, entry.2 ∈ headers :=
        fun entry member => said entry (List.mem_append_right _ member)
      rw [watch_cons]
      apply (explained_exec command first machine).intoPass
      intro middle
      split
      · exact trivial
      · exact explained_watch condition rest later middle

end

end Machine

namespace Program

theorem explained_run (board : Board) (limits : Limits) (program : Program) (walker : Walker) :
    (program.run board limits walker).Explained board limits program.headers := by
  rw [run_eq]
  refine Progress.Explained.andThen ?_ fun _ => trivial
  exact Machine.explained_execBlock program (fun _ => List.mem_map_of_mem) (program.starting walker)

/-- A report of a run that failed ends with the stance that its trace ends in. -/
theorem error_of_report {program : Program}
    (failed : (program.report board limits).success = false) :
    ∃ trace opening endState, (program.report board limits).trace = some trace ∧
      trace.toJson.field? "end_state" = some (.str endState) ∧
      (program.report board limits).error = some (opening ++ "Character is at " ++ endState) := by
  have explained := explained_run board limits program .fresh
  unfold report Report.ofProgress at failed ⊢
  cases ran : program.run board limits .fresh with
  | done machine =>
      rw [ran] at failed
      cases failed
  | stopped fault machine =>
      rw [ran] at explained
      refine ⟨_, fault.cause.text ++ " ", fault.stance.text, rfl, ?_, ?_⟩
      · rw [explained.stance]
        rfl
      · have words : " Character is at " = " " ++ "Character is at " := rfl
        rw [Progress.fault?, Option.map_some, Fault.message, words, ← String.append_assoc]

/-- A fault of a run tells the stance that the run left the walker in, and its cause is true of that
walker: a refused move is one of the program and leads from there off the board or to a wall, the
condition of a loop that ran too often does not hold, and the limit named is the one that was
given. So the error of a failed report ends with the end state of its trace. -/
theorem fault_true_of_last_walker (board : Board) (limits : Limits) (program : Program) :
    (∀ walker fault machine, program.run board limits walker = .stopped fault machine →
      fault.stance = machine.walker.toStance ∧
      (∀ target, fault.cause = .offBoard target → ∃ steps, .act (.move steps) ∈ program.headers ∧
        target = machine.walker.ahead steps ∧ board.isOutside target = true) ∧
      (∀ target, fault.cause = .wall target → ∃ steps, .act (.move steps) ∈ program.headers ∧
        target = machine.walker.ahead steps ∧ board.cellAt target = some .wall) ∧
      (∀ condition limit, fault.cause = .passLimit condition limit →
        .loop (.guarded condition) ∈ program.headers ∧ limit = limits.passes ∧
          machine.walker.sees board condition = false) ∧
      ∀ limit, fault.cause = .stepLimit limit → limit = limits.steps) ∧
    ((program.report board limits).success = false →
      ∃ trace opening endState, (program.report board limits).trace = some trace ∧
        trace.toJson.field? "end_state" = some (.str endState) ∧
        (program.report board limits).error =
          some (opening ++ "Character is at " ++ endState)) := by
  refine ⟨?_, error_of_report⟩
  intro walker fault machine stopped
  have explained := explained_run board limits program walker
  rw [stopped] at explained
  obtain ⟨stance, cause⟩ := explained
  refine ⟨stance, ?_, ?_, ?_, ?_⟩
  · intro target isCause
    rw [isCause] at cause
    cases cause with
    | offBoard said outside => exact ⟨_, said, rfl, outside⟩
  · intro target isCause
    rw [isCause] at cause
    cases cause with
    | wall said cell => exact ⟨_, said, rfl, cell⟩
  · intro condition limit isCause
    rw [isCause] at cause
    cases cause with
    | passLimit said fails => exact ⟨said, rfl, fails⟩
  · intro limit isCause
    rw [isCause] at cause
    cases cause with
    | stepLimit => rfl

/-- A move in two loops runs into a wall; the walker is left in front of it. -/
theorem wall_in_nested_loops :
    let board : Board :=
      ⟨3, #[.empty, .empty, .wall, .empty, .empty, .empty, .empty, .empty, .empty], rfl⟩
    let program : Program := [.loop (.counted 2) [.loop (.guarded .gridEdge) [.act (.move 1)]]]
    (program.run board .standard .fresh).fault? = some ⟨.wall ⟨2, 0⟩, ⟨⟨1, 0⟩, .east⟩⟩ ∧
      (program.run board .standard .fresh).machine.walker.toStance = ⟨⟨1, 0⟩, .east⟩ := by
  intro board program
  have fault : (program.run board .standard .fresh).fault? =
      some ⟨.wall ⟨2, 0⟩, ⟨⟨1, 0⟩, .east⟩⟩ := by decide +kernel
  refine ⟨fault, ?_⟩
  cases ran : program.run board .standard .fresh with
  | done machine =>
      rw [ran] at fault
      cases fault
  | stopped found machine =>
      rw [ran] at fault
      cases fault
      exact ((fault_true_of_last_walker board .standard program).1 _ _ _ ran).1.symm

end Program
end Boardwalk
