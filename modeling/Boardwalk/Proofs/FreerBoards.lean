import Boardwalk.Proofs.FixedCost
import Boardwalk.Proofs.StepCount

/-!
# Freer boards

A program without guarded loops asks the board nothing but whether its moves may be made.
So it walks on another board as it does on this one, as long as no open point of this one
is a wall there, and where it is stopped here it may go on there. The two runs count their
steps alike, so a limit that stops this one stops the other at the same step. A guarded loop
would ask where the walls are, and might be left later, or never, on a board with fewer.
-/
namespace Boardwalk

/-- Every point that is open on a board is open on the other one, which may be of another size. -/
def Board.OpenOn (board freer : Board) : Prop :=
  ∀ point, board.isWall point = false → freer.isWall point = false

/-- The second stretch does what the first does, and goes on if only the first is stopped. -/
inductive Progress.LeadsOn : Progress → Progress → Prop
  | done (machine : Machine) : LeadsOn (.done machine) (.done machine)
  | stopped {fault : Fault} {machine : Machine} {other : Progress} :
      machine.walker.Continues other.machine.walker → LeadsOn (.stopped fault machine) other

namespace Board

theorem isWall_blank (size : Nat) (point : Point) :
    (blank size).isWall point = (blank size).isOutside point := by
  cases found : (blank size).slot? point with
  | none =>
      have outside : (blank size).isOutside point = true := by rw [isOutside, found]; rfl
      rw [outside, isWall_of_isOutside outside]
  | some slot =>
      have stored := lt_size_of_slot? found
      rw [cells_size] at stored
      have cell : (blank size).cellAt point = some .empty := by
        rw [cellAt, found]
        exact Array.getElem?_replicate.trans (if_pos stored)
      rw [isWall, cell, isOutside, found]
      rfl

/-- A board without walls is as free as any that is not larger. -/
theorem openOn_blank {board : Board} {size : Nat} (le : board.size ≤ size) :
    board.OpenOn (blank size) := by
  intro point free
  obtain ⟨left, right, top, bottom⟩ := isOutside_eq_false_iff.mp (isOutside_of_isWall free)
  have larger : (board.size : Int) ≤ size := Int.ofNat_le.mpr le
  rw [isWall_blank, isOutside_eq_false_iff]
  exact ⟨left, Int.lt_of_lt_of_le right larger, top, Int.lt_of_lt_of_le bottom larger⟩

end Board

theorem Walker.blocked?_of_openOn {board freer : Board} (fewer : board.OpenOn freer)
    {walker : Walker} {amount : Int64} (free : walker.blocked? board amount = none) :
    walker.blocked? freer amount = none := by
  have still := fewer _ (blocked?_eq_none_iff.mp free).2
  exact blocked?_eq_none_iff.mpr ⟨Board.isOutside_of_isWall still, still⟩

namespace Progress

theorem LeadsOn.refl (progress : Progress) : progress.LeadsOn progress := by
  cases progress with
  | done machine => exact .done machine
  | stopped fault machine => exact .stopped (.refl machine.walker)

theorem LeadsOn.eq_done {p q : Progress} (h : p.LeadsOn q) {machine : Machine}
    (done : p = .done machine) : q = .done machine := by
  cases h with
  | done => exact done
  | stopped => cases done

theorem LeadsOn.continues {p q : Progress} (h : p.LeadsOn q) :
    p.machine.walker.Continues q.machine.walker := by
  cases h with
  | done machine => exact .refl machine.walker
  | stopped continues => exact continues

theorem LeadsOn.andThen {p q : Progress} {f g : Machine → Progress} (h : p.LeadsOn q)
    (next : ∀ machine, (f machine).LeadsOn (g machine))
    (grows : ∀ machine : Machine, machine.walker.Continues (g machine).machine.walker) :
    (p.andThen f).LeadsOn (q.andThen g) := by
  cases h with
  | done machine => exact next machine
  | stopped continues =>
      cases q with
      | done machine => exact .stopped (continues.trans (grows machine))
      | stopped fault machine => exact .stopped continues

end Progress

namespace Machine

variable {board freer : Board} {limits : Limits}

theorem continues_act (board : Board) (machine : Machine) (action : Action) :
    machine.walker.Continues (machine.act board action).machine.walker := by
  cases acted : machine.act board action with
  | done next => exact (Walker.changes_of_perform? (perform?_of_act_done acted).1).continues
  | stopped fault next =>
      rw [machine_of_act_stopped acted]
      exact .refl machine.walker

theorem leadsOn_act (fewer : board.OpenOn freer) (machine : Machine) (action : Action) :
    (machine.act board action).LeadsOn (machine.act freer action) := by
  cases action with
  | turn side =>
      rw [act_turn, act_turn]
      exact .done _
  | move amount =>
      have grows := continues_act freer machine (.move amount)
      rw [act_move]
      split
      case h_1 => exact .stopped grows
      case h_2 free =>
        rw [act_move, Walker.blocked?_of_openOn fewer free]
        exact .done _

theorem leadsOn_repeatPass {pass pass' : Machine → Progress}
    (h : ∀ machine, (pass machine).LeadsOn (pass' machine))
    (goes : ∀ machine, Reaches freer limits machine (pass' machine).machine) (count : Nat)
    (machine : Machine) :
    (repeatPass pass count machine).LeadsOn (repeatPass pass' count machine) := by
  induction count generalizing machine with
  | zero => exact .done machine
  | succ count ih =>
      refine (h machine).andThen ih fun middle => ?_
      exact (Reaches.repeatPass goes count middle).changes.continues

mutual

theorem leadsOn_exec (fewer : board.OpenOn freer) (command : Command)
    (counted : command.counted = true) (machine : Machine) :
    (exec board limits command machine).LeadsOn (exec freer limits command machine) := by
  match command with
  | .act action =>
      refine (Progress.LeadsOn.refl _).andThen ?_ fun ticked => continues_act freer ticked action
      intro ticked
      exact leadsOn_act fewer ticked action
  | .loop (.counted times) body =>
      have goes (start : Machine) : Reaches freer limits start
          (fullPass freer limits body start).machine :=
        (Reaches.tick start).andThen (reaches_execBlock body)
      rw [exec_counted, exec_counted]
      refine (Progress.LeadsOn.refl _).andThen ?_ fun ticked => ?_
      · refine leadsOn_repeatPass (fun start => ?_) goes times.toNat
        refine (Progress.LeadsOn.refl _).andThen ?_ fun ticked => ?_
        · exact leadsOn_execBlock fewer body counted
        · exact (reaches_execBlock body ticked).changes.continues
      · exact (Reaches.repeatPass goes times.toNat ticked).changes.continues
  | .loop (.guarded condition) body => cases counted

theorem leadsOn_execBlock (fewer : board.OpenOn freer) (block : Program)
    (counted : block.counted = true) (machine : Machine) :
    (execBlock board limits block machine).LeadsOn (execBlock freer limits block machine) := by
  match block with
  | [] => exact .done machine
  | command :: rest =>
      obtain ⟨first, others⟩ := Bool.and_eq_true_iff.mp counted
      refine (leadsOn_exec fewer command first machine).andThen ?_ fun middle => ?_
      · exact leadsOn_execBlock fewer rest others
      · exact (reaches_execBlock rest middle).changes.continues

end

end Machine

namespace Program

variable {board freer : Board} {limits : Limits} {program : Program}

theorem leadsOn_run (fewer : board.OpenOn freer) (counted : program.counted = true)
    (walker : Walker) :
    (program.run board limits walker).LeadsOn (program.run freer limits walker) := by
  rw [run_eq, run_eq]
  refine (Machine.leadsOn_execBlock fewer program counted _).andThen ?_ fun machine => ?_
  · exact fun machine => .done _
  · exact .refl machine.walker

/-- A program without guarded loops that runs through on a board runs through on every freer one, to
the same walker in the same steps. If it is stopped, what it did up to there is the beginning of
what it does on the freer board. A larger board without walls is freer than a smaller one. -/
theorem freer_board_leads_on (program : Program) (counted : program.counted = true)
    (limits : Limits) (walker : Walker) :
    (∀ board freer : Board, board.OpenOn freer →
      (∀ machine, program.run board limits walker = .done machine →
        program.run freer limits walker = .done machine) ∧
      ∀ fault machine, program.run board limits walker = .stopped fault machine →
        let further := (program.run freer limits walker).machine.walker
        machine.walker.moves.toList <+: further.moves.toList ∧
          machine.walker.visited.toList <+: further.visited.toList) ∧
    ∀ size larger : Nat, size ≤ larger → ∀ machine,
      program.run (.blank size) limits walker = .done machine →
        program.run (.blank larger) limits walker = .done machine := by
  have onward {board freer : Board} (fewer : board.OpenOn freer) :
      (program.run board limits walker).LeadsOn (program.run freer limits walker) :=
    leadsOn_run fewer counted walker
  refine ⟨fun board freer fewer => ⟨fun machine done => ?_, fun fault machine stopped => ?_⟩,
    fun size larger le machine done => ?_⟩
  · exact (onward fewer).eq_done done
  · have continues := (onward fewer).continues
    rw [stopped] at continues
    exact ⟨continues.moves, continues.visited⟩
  · exact (onward (Board.openOn_blank le)).eq_done done

/-- A stairway of two steps is broken off at a wall in the second one. It goes on where there is no
wall, and it is the same on all boards without walls that have room for it. -/
theorem stairway_past_wall :
    let stairway : Program := [.loop (.counted 2) [.act (.turn .right), .act (.move 1),
      .loop (.counted 1) [.act (.turn .left), .act (.move 1)]]]
    let walled : Board :=
      ⟨3, #[.empty, .empty, .empty, .empty, .empty, .empty, .empty, .wall, .finish], rfl⟩
    let broken := stairway.run walled .standard .fresh
    let whole := stairway.run (.blank 3) .standard .fresh
    stairway.counted = true ∧ walled.OpenOn (.blank 3) ∧
      broken.fault? = some ⟨.wall ⟨1, 2⟩, ⟨⟨1, 1⟩, .south⟩⟩ ∧
      broken.machine.walker.visited.toList = [⟨0, 0⟩, ⟨0, 1⟩, ⟨1, 1⟩] ∧
      broken.machine.walker.visited.toList <+: whole.machine.walker.visited.toList ∧
      whole.fault? = none ∧ whole.machine.walker.position = ⟨2, 2⟩ ∧
      ∀ size, 3 ≤ size → stairway.run (.blank size) .standard .fresh = .done whole.machine := by
  intro stairway walled broken whole
  have counted : stairway.counted = true := by decide
  have fewer : walled.OpenOn (.blank 3) := Board.openOn_blank (Nat.le_refl 3)
  have fault : (stairway.run walled .standard .fresh).fault? =
      some ⟨.wall ⟨1, 2⟩, ⟨⟨1, 1⟩, .south⟩⟩ := by decide +kernel
  have visited : (stairway.run walled .standard .fresh).machine.walker.visited.toList =
      [⟨0, 0⟩, ⟨0, 1⟩, ⟨1, 1⟩] := by decide +kernel
  have through : (stairway.run (.blank 3) .standard .fresh).fault? = none := by decide +kernel
  have arrived : (stairway.run (.blank 3) .standard .fresh).machine.walker.position = ⟨2, 2⟩ := by
    decide +kernel
  obtain ⟨past, larger⟩ := freer_board_leads_on stairway counted .standard .fresh
  obtain ⟨-, begun⟩ := (past walled (.blank 3) fewer).2 _ _ (Progress.eq_stopped_of_fault? fault)
  exact ⟨counted, fewer, fault, visited, begun, through, arrived,
    fun size le => larger 3 size le _ (Progress.eq_done_of_fault?_eq_none through)⟩

end Program
end Boardwalk
