import Boardwalk.Proofs.Boundaries

/-!
# Guarded walking is safe

A condition looks one step ahead, and so does a move by one step. In the block of a
guarded loop every command starts where the condition does not hold, so a move by one
step in such a block never meets what the condition warns of. This goes on through
inner loops, as long as their conditions hold wherever the outer one does. Walls cover
the edge of the board in this way; the edge does not cover the walls on the board.
-/
namespace Boardwalk

/-- A command that goes at most one step at a time, and looks out for the condition in between. -/
inductive Command.Careful (condition : Condition) : Command → Prop
  | turn (side : Side) : Careful condition (.act (.turn side))
  | step : Careful condition (.act (.move 1))
  | guarded {inner : Condition} {body : Program} : inner = .wallAhead ∨ inner = condition →
      (∀ command ∈ body, Careful condition command) →
      Careful condition (.loop (.guarded inner) body)

/-- Whether a condition that does not hold rules a cause out. -/
def Condition.rulesOut : Condition → Cause → Bool
  | _, .offBoard _ => true
  | .wallAhead, .wall _ => true
  | .gridEdge, .wall _ => false
  | _, .passLimit _ _ => false
  | _, .stepLimit _ => false

@[simp] theorem Condition.rulesOut_passLimit (condition inner : Condition) (limit : Nat) :
    condition.rulesOut (.passLimit inner limit) = false := by
  cases condition <;> rfl

@[simp] theorem Condition.rulesOut_stepLimit (condition : Condition) (limit : Nat) :
    condition.rulesOut (.stepLimit limit) = false := by
  cases condition <;> rfl

variable {board : Board} {limits : Limits} {condition : Condition}

namespace Walker

theorem sees_of_covered {inner : Condition} (covers : inner = .wallAhead ∨ inner = condition)
    {walker : Walker} (holds : walker.sees board condition = true) :
    walker.sees board inner = true := by
  rcases covers with rfl | rfl
  · cases condition with
    | wallAhead => exact holds
    | gridEdge => exact Board.isWall_of_isOutside holds
  · exact holds

/-- A single step is only refused for what the condition does not look at. -/
theorem rulesOut_of_blocked? {walker : Walker} {fault : Fault}
    (fails : walker.sees board condition = false) (blocked : walker.blocked? board 1 = some fault) :
    condition.rulesOut fault.cause = false := by
  unfold blocked? obstacle? at blocked
  cases outside : board.isOutside (walker.ahead 1) with
  | true =>
      have holds : walker.sees board condition = true := by
        cases condition with
        | wallAhead => exact Board.isWall_of_isOutside outside
        | gridEdge => exact outside
      rw [fails] at holds
      cases holds
  | false =>
      rw [outside] at blocked
      cases condition with
      | wallAhead =>
          rw [show board.isWall (walker.ahead 1) = false from fails] at blocked
          cases blocked
      | gridEdge =>
          cases wall : board.isWall (walker.ahead 1) with
          | true =>
              rw [wall] at blocked
              cases blocked
              rfl
          | false =>
              rw [wall] at blocked
              cases blocked

end Walker

namespace Machine

theorem stopped_of_tick_andThen {machine last : Machine} {fault : Fault}
    {next : Machine → Progress} (h : (machine.tick limits).andThen next = .stopped fault last) :
    fault.cause = .stepLimit limits.steps ∨
      ∃ ticked, ticked.walker = machine.walker ∧ next ticked = .stopped fault last := by
  by_cases spent : machine.steps = limits.steps
  · rw [tick_of_full spent] at h
    cases h
    exact .inl rfl
  · obtain ⟨ticked, tick, walker⟩ := exists_tick_of_room spent
    rw [tick] at h
    exact .inr ⟨ticked, walker, h⟩

theorem rulesOut_of_act_stopped {action : Action}
    (careful : (Command.act action).Careful condition) {machine next : Machine} {fault : Fault}
    (fails : machine.walker.sees board condition = false)
    (stopped : machine.act board action = .stopped fault next) :
    condition.rulesOut fault.cause = false := by
  cases careful with
  | turn side =>
      rw [act_turn] at stopped
      cases stopped
  | step =>
      rw [act_move] at stopped
      split at stopped
      case h_1 blocked =>
        cases stopped
        exact Walker.rulesOut_of_blocked? fails blocked
      case h_2 => cases stopped

/-- A loop fails by its limits, or where one of its commands fails, and each of them starts with the
condition not seen. -/
theorem rulesOut_of_guarded_stopped {inner : Condition} {body : Program}
    (covers : inner = .wallAhead ∨ inner = condition)
    (commands : ∀ command ∈ body, ∀ before fault next,
      before.walker.sees board condition = false →
      exec board limits command before = .stopped fault next →
      condition.rulesOut fault.cause = false)
    {machine next : Machine} {fault : Fault}
    (stopped : exec board limits (.loop (.guarded inner) body) machine = .stopped fault next) :
    condition.rulesOut fault.cause = false := by
  rw [exec_guarded] at stopped
  rcases stopped_of_tick_andThen stopped with refused | ⟨ticked, -, looped⟩
  · rw [refused, Condition.rulesOut_stepLimit]
  · have ends := @loopEnds_of_guarded board limits inner body ticked
    rw [looped] at ends
    rcases ends with ⟨rfl, -⟩ | ⟨round, -, rfl, -⟩ |
      ⟨count, -, before, command, -, fails, here, failed⟩
    · exact Condition.rulesOut_passLimit condition _ _
    · exact Condition.rulesOut_stepLimit condition _
    · refine commands command (List.mem_of_getElem? here) before fault next ?_ failed
      cases seen : before.walker.sees board condition with
      | false => rfl
      | true =>
          rw [Walker.sees_of_covered covers seen] at fails
          cases fails

/-- The induction is on how the command is built; what it carries is that no command starts where
the condition is seen. -/
theorem rulesOut_of_careful {command : Command} (careful : command.Careful condition) :
    ∀ machine fault next, machine.walker.sees board condition = false →
      exec board limits command machine = .stopped fault next →
      condition.rulesOut fault.cause = false := by
  have acts {action : Action} (careful : (Command.act action).Careful condition) :
      ∀ machine fault next, machine.walker.sees board condition = false →
        exec board limits (.act action) machine = .stopped fault next →
        condition.rulesOut fault.cause = false := by
    intro machine fault next fails stopped
    rw [exec] at stopped
    rcases stopped_of_tick_andThen stopped with refused | ⟨ticked, walker, acted⟩
    · rw [refused, Condition.rulesOut_stepLimit]
    · rw [← walker] at fails
      exact rulesOut_of_act_stopped careful fails acted
  induction careful with
  | turn side => exact acts (.turn side)
  | step => exact acts .step
  | guarded covers careful ih =>
      intro machine fault next _ stopped
      exact rulesOut_of_guarded_stopped covers ih stopped

/-- A loop that looks out for walls and goes one step at a time fails only by its limits, whatever
the board, the walker and the number of steps counted before. One that looks out for the edge
never leaves the board. -/
theorem guarded_walking_is_safe (board : Board) (limits : Limits) (body : Program)
    (machine : Machine) :
    ((∀ command ∈ body, command.Careful .wallAhead) → ∀ fault next,
      exec board limits (.loop (.guarded .wallAhead) body) machine = .stopped fault next →
        fault.cause.isLimit = true) ∧
    ((∀ command ∈ body, command.Careful .gridEdge) → ∀ fault next,
      exec board limits (.loop (.guarded .gridEdge) body) machine = .stopped fault next →
        ∀ target, fault.cause ≠ .offBoard target) := by
  constructor
  · intro careful fault next stopped
    have unmet : Condition.wallAhead.rulesOut fault.cause = false :=
      rulesOut_of_guarded_stopped (.inl rfl) (fun command member =>
        rulesOut_of_careful (careful command member)) stopped
    generalize fault.cause = cause at unmet
    cases cause with
    | offBoard target => cases unmet
    | wall target => cases unmet
    | passLimit condition limit => rfl
    | stepLimit limit => rfl
  · intro careful fault next stopped target outside
    have unmet : Condition.gridEdge.rulesOut fault.cause = false :=
      rulesOut_of_guarded_stopped (.inr rfl) (fun command member =>
        rulesOut_of_careful (careful command member)) stopped
    rw [outside] at unmet
    cases unmet

/-- One pass beside a wall is not enough to see one, and nothing else goes wrong in it. Looking out
for the edge alone, the walker stays on the board but runs into the wall. -/
theorem guarded_walk_beside_wall :
    let board : Board :=
      ⟨3, #[.empty, .empty, .wall, .empty, .empty, .empty, .empty, .empty, .empty], rfl⟩
    let walk : Program := [.act (.turn .right), .act (.move 1), .act (.turn .left),
      .loop (.guarded .wallAhead) [.act (.move 1)]]
    let walled := exec board ⟨1, 50⟩ (.loop (.guarded .wallAhead) walk) (.ofWalker .fresh)
    let edged := exec board ⟨1, 50⟩ (.loop (.guarded .gridEdge) [.act (.move 1), .act (.move 1)])
      (.ofWalker .fresh)
    (∃ fault, walled.fault? = some fault ∧ fault.stance = ⟨⟨1, 1⟩, .east⟩ ∧
      fault.cause.isLimit = true) ∧
    ∃ fault, edged.fault? = some fault ∧ fault.cause = .wall ⟨2, 0⟩ ∧
      ∀ target, fault.cause ≠ .offBoard target := by
  intro board walk walled edged
  have first : walled.fault? = some ⟨.passLimit .wallAhead 1, ⟨⟨1, 1⟩, .east⟩⟩ := by decide +kernel
  have second : edged.fault? = some ⟨.wall ⟨2, 0⟩, ⟨⟨1, 0⟩, .east⟩⟩ := by decide +kernel
  have careful : ∀ command ∈ walk, command.Careful .wallAhead := by
    simp only [walk, List.forall_mem_cons]
    refine ⟨.turn .right, .step, .turn .left, .guarded (.inl rfl) ?_, List.forall_mem_nil _⟩
    exact List.forall_mem_singleton.mpr .step
  have steps : ∀ command ∈ [Command.act (.move 1), .act (.move 1)], command.Careful .gridEdge := by
    simp only [List.forall_mem_cons]
    exact ⟨.step, .step, List.forall_mem_nil _⟩
  refine ⟨⟨_, first, rfl, ?_⟩, ⟨_, second, rfl, ?_⟩⟩
  · exact (guarded_walking_is_safe board ⟨1, 50⟩ walk _).1 careful _ _
      (Progress.eq_stopped_of_fault? first)
  · exact (guarded_walking_is_safe board ⟨1, 50⟩ _ _).2 steps _ _
      (Progress.eq_stopped_of_fault? second)

end Machine
end Boardwalk
