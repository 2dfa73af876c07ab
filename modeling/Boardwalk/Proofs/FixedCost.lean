import Boardwalk.Proofs.Limits

/-!
# What programs without guarded loops cost

How often a counted loop runs its block is written down, so the steps of a program
without guarded loops can be counted from its text: one for each command that is carried
out and one for each pass. A run that goes through takes exactly these steps, whatever
the board and the walker, and a run that is refused a step was allowed fewer.
-/
namespace Boardwalk

mutual

/-- Whether all loops of a command are counted ones. -/
def Command.counted : Command → Bool
  | .act _ => true
  | .loop (.counted _) body => Program.counted body
  | .loop (.guarded _) _ => false

@[inherit_doc Command.counted]
def Program.counted : Program → Bool
  | [] => true
  | command :: rest => command.counted && Program.counted rest

end

/-- What a program comes to that runs to its end. -/
structure Cost where
  steps : Nat
  /-- Entries in the record, one for each action. -/
  entries : Nat

namespace Cost

mutual

/-- A guarded loop is taken as one that makes no pass. -/
def ofCommand : Command → Cost
  | .act _ => ⟨1, 1⟩
  | .loop (.counted times) body =>
    ⟨1 + times.toNat * (1 + (ofProgram body).steps), times.toNat * (ofProgram body).entries⟩
  | .loop (.guarded _) _ => ⟨1, 0⟩

def ofProgram : List Command → Cost
  | [] => ⟨0, 0⟩
  | command :: rest =>
    ⟨(ofCommand command).steps + (ofProgram rest).steps,
      (ofCommand command).entries + (ofProgram rest).entries⟩

end

def tick : Cost := ⟨1, 0⟩

def add (a b : Cost) : Cost := ⟨a.steps + b.steps, a.entries + b.entries⟩

def scale (count : Nat) (cost : Cost) : Cost := ⟨count * cost.steps, count * cost.entries⟩

theorem scale_succ (count : Nat) (cost : Cost) :
    scale (count + 1) cost = cost.add (scale count cost) := by
  rw [scale, scale, add, Nat.succ_mul, Nat.succ_mul, Nat.add_comm cost.steps,
    Nat.add_comm cost.entries]

theorem ofCommand_counted (times : UInt32) (body : Program) :
    ofCommand (.loop (.counted times) body) =
      tick.add (scale times.toNat (tick.add (ofProgram body))) := by
  rw [ofCommand, tick, add, add, scale, Nat.zero_add, Nat.zero_add]

end Cost

/-- What a stretch comes to that costs a given amount if nothing stops it. -/
inductive Progress.Costs (limits : Limits) (start : Machine) (cost : Cost) : Progress → Prop
  | done {next : Machine} : next.steps = start.steps + cost.steps →
      next.walker.moves.size = start.walker.moves.size + cost.entries →
      Costs limits start cost (.done next)
  | blocked {fault : Fault} {next : Machine} : fault.cause.isLimit = false →
      Costs limits start cost (.stopped fault next)
  | ranOut {stance : Stance} {next : Machine} : next.steps = limits.steps →
      limits.steps < start.steps + cost.steps →
      Costs limits start cost (.stopped ⟨.stepLimit limits.steps, stance⟩ next)

variable {board : Board} {limits : Limits}

theorem Progress.Costs.andThen {progress : Progress} {next : Machine → Progress} {start : Machine}
    {a b : Cost} (first : progress.Costs limits start a)
    (rest : ∀ middle, (next middle).Costs limits middle b) :
    (progress.andThen next).Costs limits start (a.add b) := by
  cases first with
  | blocked obstacle => exact .blocked obstacle
  | ranOut full short =>
      refine .ranOut full (Nat.lt_of_lt_of_le short ?_)
      exact Nat.add_le_add_left (Nat.le_add_right _ _) _
  | @done middle steps moves =>
      have second := rest middle
      rw [andThen_done]
      generalize next middle = last at second
      cases second with
      | done steps' moves' =>
          refine .done ?_ ?_
          · rw [steps', steps, Cost.add, Nat.add_assoc]
          · rw [moves', moves, Cost.add, Nat.add_assoc]
      | blocked obstacle => exact .blocked obstacle
      | ranOut full short =>
          rw [steps, Nat.add_assoc] at short
          exact .ranOut full short

theorem Walker.isLimit_of_blocked? {walker : Walker} {amount : Int64} {fault : Fault}
    (blocked : walker.blocked? board amount = some fault) : fault.cause.isLimit = false := by
  unfold blocked? obstacle? at blocked
  split at blocked
  case h_1 cause found =>
    cases blocked
    split at found
    · cases found
      rfl
    · split at found
      · cases found
        rfl
      · cases found
  case h_2 => cases blocked

namespace Machine

theorem costs_tick (machine : Machine) : (machine.tick limits).Costs limits machine .tick := by
  by_cases full : machine.steps = limits.steps
  · rw [tick_of_full full]
    exact .ranOut full (full ▸ Nat.lt_succ_self _)
  · rw [tick_of_room full]
    exact .done rfl rfl

theorem costs_act (machine : Machine) (action : Action) :
    (machine.act board action).Costs limits machine ⟨0, 1⟩ := by
  cases action with
  | turn side =>
      rw [act_turn]
      exact .done rfl (Array.size_push _)
  | move amount =>
      rw [act_move]
      split
      case h_1 fault blocked => exact .blocked (Walker.isLimit_of_blocked? blocked)
      case h_2 => exact .done rfl (Array.size_push _)

theorem costs_repeatPass {pass : Machine → Progress} {cost : Cost}
    (h : ∀ machine, (pass machine).Costs limits machine cost) (count : Nat) (machine : Machine) :
    (repeatPass pass count machine).Costs limits machine (cost.scale count) := by
  induction count generalizing machine with
  | zero =>
      rw [Cost.scale, Nat.zero_mul, Nat.zero_mul]
      exact .done rfl rfl
  | succ count ih =>
      rw [Cost.scale_succ]
      exact (h machine).andThen ih

mutual

theorem costs_exec (command : Command) (counted : command.counted = true) (machine : Machine) :
    (exec board limits command machine).Costs limits machine (.ofCommand command) := by
  match command with
  | .act action => exact (costs_tick machine).andThen fun ticked => costs_act ticked action
  | .loop (.counted times) body =>
      rw [Cost.ofCommand_counted]
      refine (costs_tick machine).andThen fun ticked => costs_repeatPass ?_ times.toNat ticked
      intro start
      exact (costs_tick start).andThen (costs_execBlock body counted)
  | .loop (.guarded condition) body => cases counted

theorem costs_execBlock (block : Program) (counted : block.counted = true) (machine : Machine) :
    (execBlock board limits block machine).Costs limits machine (.ofProgram block) := by
  match block with
  | [] => exact .done rfl rfl
  | command :: rest =>
      obtain ⟨first, others⟩ := Bool.and_eq_true_iff.mp counted
      exact (costs_exec command first machine).andThen (costs_execBlock rest others)

end

end Machine

namespace Program

theorem costs_run {program : Program} (counted : program.counted = true) (walker : Walker) :
    (program.run board limits walker).Costs limits (program.starting walker)
      (.ofProgram program) := by
  have costs : (Machine.execBlock board limits program (program.starting walker)).Costs limits
      (program.starting walker) (.ofProgram program) := Machine.costs_execBlock program counted _
  rw [run_eq]
  generalize Machine.execBlock board limits program (program.starting walker) = progress at costs
  cases costs with
  | done steps moves => exact .done steps moves
  | blocked obstacle => exact .blocked obstacle
  | ranOut full short => exact .ranOut full short

/-- A run of a program without guarded loops that goes through takes the steps that the program
costs, which the limit then allows, and adds an entry for each action. If it is refused a step, it
took as many as the limit allows, and the program costs more. No pass is ever refused. -/
theorem counted_run_costs (board : Board) (limits : Limits) (program : Program) (walker : Walker)
    (counted : program.counted = true) :
    let run := program.run board limits walker
    let cost := Cost.ofProgram program
    (∀ machine, run = .done machine →
      cost.steps ≤ limits.steps ∧ machine.steps = cost.steps ∧
        ∃ entries, machine.walker.moves.toList = walker.moves.toList ++ entries ∧
          entries.length = cost.entries) ∧
    ∀ fault machine, run = .stopped fault machine →
      (∀ limit, fault.cause = .stepLimit limit →
        limits.steps < cost.steps ∧ machine.steps = limits.steps) ∧
      ∀ condition limit, fault.cause ≠ .passLimit condition limit := by
  intro run cost
  have costs : run.Costs limits (program.starting walker) cost := costs_run counted walker
  obtain ⟨bound, entries, appended, -⟩ := run_steps_bounds board limits program walker
  constructor
  · intro machine done
    rw [done] at costs
    rw [show program.run board limits walker = .done machine from done] at bound appended
    cases costs with
    | done steps moves =>
        have counted : machine.steps = cost.steps := steps.trans (Nat.zero_add _)
        refine ⟨counted ▸ bound, counted, entries, appended, ?_⟩
        have size := congrArg List.length appended
        rw [List.length_append, Array.length_toList] at size
        exact Nat.add_left_cancel (size.symm.trans moves)
  · intro fault machine stopped
    rw [stopped] at costs
    cases costs with
    | blocked obstacle =>
        constructor
        · intro limit cause
          rw [cause] at obstacle
          cases obstacle
        · intro condition limit cause
          rw [cause] at obstacle
          cases obstacle
    | ranOut full short =>
        refine ⟨fun limit _ => ⟨(Nat.zero_add cost.steps) ▸ short, full⟩, ?_⟩
        intro condition limit cause
        cases cause

/-- Loops that do nothing cost their passes all the same: three moves take thirteen steps, and twenty
steps are too few for a program without any. -/
theorem idle_loops_cost :
    let idle : Program := [.loop (.counted 3) [.loop (.counted 0) [.act (.move 9)], .act (.move 1)],
      .loop (.counted 2) []]
    let endless : Program := [.loop (.counted 4294967295) [.loop (.counted 4294967295) []]]
    let through := idle.run (.blank 4) ⟨0, 13⟩ .fresh
    let refused := endless.run (.blank 4) ⟨0, 20⟩ .fresh
    (idle.counted = true ∧ through.fault? = none ∧ through.machine.steps = 13 ∧
      ∃ entries, through.machine.walker.moves.toList = [] ++ entries ∧ entries.length = 3) ∧
    endless.counted = true ∧ refused.fault? = some ⟨.stepLimit 20, ⟨⟨0, 0⟩, .east⟩⟩ ∧
      20 < (Cost.ofProgram endless).steps ∧ refused.machine.steps = 20 := by
  intro idle endless through refused
  have counted : idle.counted = true ∧ endless.counted = true := by decide
  have done : through.fault? = none := by decide +kernel
  have fault : refused.fault? = some ⟨.stepLimit 20, ⟨⟨0, 0⟩, .east⟩⟩ := by decide +kernel
  obtain ⟨-, steps, entries⟩ := (counted_run_costs (.blank 4) ⟨0, 13⟩ idle .fresh counted.1).1 _
    (Progress.eq_done_of_fault?_eq_none done)
  obtain ⟨ranOut, -⟩ := (counted_run_costs (.blank 4) ⟨0, 20⟩ endless .fresh counted.2).2 _ _
    (Progress.eq_stopped_of_fault? fault)
  exact ⟨⟨counted.1, done, steps, entries⟩, counted.2, fault, ranOut 20 rfl⟩

end Program
end Boardwalk
