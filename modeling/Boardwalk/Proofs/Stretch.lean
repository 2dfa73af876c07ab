import Boardwalk.Run.Machine

/-!
# What a run is made of

Whatever a program is, its run is a chain of four kinds of small steps: a step is
counted, a step is counted and an action carried out, or a guarded loop is left,
between two passes or in the middle of one. This holds of runs that stop at a fault
too. An invariant of runs is therefore a fact about these four kinds.
-/
namespace Boardwalk

def Pass.machine : Pass → Machine
  | .through machine | .satisfied machine | .stopped _ machine => machine

/-- Goes on after a pass, unless it stopped. -/
def Pass.resolve (pass : Pass) (through satisfied : Machine → Progress) : Progress :=
  match pass with
  | .through machine => through machine
  | .satisfied machine => satisfied machine
  | .stopped fault machine => .stopped fault machine

/-- Goes on with the rest of a pass, unless the stretch stopped. -/
def Progress.intoPass (progress : Progress) (next : Machine → Pass) : Pass :=
  match progress with
  | .done machine => next machine
  | .stopped fault machine => .stopped fault machine

namespace Machine

/-- What happens at once in a run, with the actions that are carried out. -/
inductive Step (board : Board) (limits : Limits) : Machine → List Action → Machine → Prop
  | tick {machine next} : machine.tick limits = .done next → Step board limits machine [] next
  | act {machine ticked next action} : machine.tick limits = .done ticked →
      ticked.act board action = .done next → Step board limits machine [action] next
  | leftBetween {machine condition passes} :
      Step board limits machine [] (machine.emit (.leftBetween condition passes))
  | leftMidPass {machine condition passes} :
      Step board limits machine [] (machine.emit (.leftMidPass condition passes))

inductive Stretch (board : Board) (limits : Limits) : Machine → List Action → Machine → Prop
  | refl {machine} : Stretch board limits machine [] machine
  | tail {a b c xs ys} : Stretch board limits a xs b → Step board limits b ys c →
      Stretch board limits a (xs ++ ys) c

def Reaches (board : Board) (limits : Limits) (a b : Machine) : Prop :=
  ∃ actions, Stretch board limits a actions b

variable {board : Board} {limits : Limits}

theorem Stretch.trans {a b c : Machine} {xs ys : List Action} (ab : Stretch board limits a xs b)
    (bc : Stretch board limits b ys c) : Stretch board limits a (xs ++ ys) c := by
  induction bc with
  | refl =>
      rw [List.append_nil]
      exact ab
  | tail bc step ih =>
      rw [← List.append_assoc]
      exact ih.tail step

theorem Reaches.refl (machine : Machine) : Reaches board limits machine machine := ⟨[], .refl⟩

theorem Step.reaches {a b : Machine} {actions : List Action} (h : Step board limits a actions b) :
    Reaches board limits a b := ⟨[] ++ actions, .tail .refl h⟩

theorem Reaches.trans {a b c : Machine} (ab : Reaches board limits a b)
    (bc : Reaches board limits b c) : Reaches board limits a c := by
  obtain ⟨xs, first⟩ := ab
  obtain ⟨ys, second⟩ := bc
  exact ⟨xs ++ ys, first.trans second⟩

theorem tick_eq_done_iff {machine next : Machine} :
    machine.tick limits = .done next ↔
      machine.steps ≠ limits.steps ∧ next = ⟨machine.walker, machine.steps + 1, machine.events⟩ := by
  rw [tick]
  split
  case isTrue full =>
    constructor
    · intro h
      cases h
    · rintro ⟨free, -⟩
      exact absurd full free
  case isFalse free =>
    constructor
    · intro h
      cases h
      exact ⟨free, rfl⟩
    · rintro ⟨-, rfl⟩
      rfl

theorem machine_of_tick_stopped {machine next : Machine} {fault : Fault}
    (h : machine.tick limits = .stopped fault next) : next = machine := by
  rw [tick] at h
  split at h
  case isTrue =>
    cases h
    rfl
  case isFalse => cases h

theorem act_turn (machine : Machine) (side : Side) :
    machine.act board (.turn side) =
      .done ⟨(machine.walker.turn side).record (Action.turn side).text, machine.steps,
        machine.events⟩ := by
  cases machine
  rfl

theorem act_move (machine : Machine) (amount : Int64) :
    machine.act board (.move amount) =
      match machine.walker.blocked? board amount with
      | some fault => .stopped fault machine
      | none => .done ⟨(machine.walker.goTo (machine.walker.ahead amount)).record
          (Action.move amount).text, machine.steps, machine.events.push
            (.moved amount machine.walker.position (machine.walker.ahead amount))⟩ := by
  cases machine
  rfl

theorem machine_of_act_stopped {machine next : Machine} {action : Action} {fault : Fault}
    (h : machine.act board action = .stopped fault next) : next = machine := by
  cases action with
  | turn side =>
      rw [act_turn] at h
      cases h
  | move amount =>
      rw [act_move] at h
      split at h
      case h_1 =>
        cases h
        rfl
      case h_2 => cases h

theorem Reaches.tick (machine : Machine) :
    Reaches board limits machine (machine.tick limits).machine := by
  cases h : machine.tick limits with
  | done next => exact (Step.tick h).reaches
  | stopped fault next =>
      rw [machine_of_tick_stopped h]
      exact .refl machine

/-- What goes on after a stretch is reached through its end. -/
theorem Reaches.andThen {machine : Machine} {progress : Progress} {next : Machine → Progress}
    (first : Reaches board limits machine progress.machine)
    (rest : ∀ middle, Reaches board limits middle (next middle).machine) :
    Reaches board limits machine (progress.andThen next).machine := by
  cases progress with
  | done middle => exact first.trans (rest middle)
  | stopped fault middle => exact first

theorem Reaches.intoPass {machine : Machine} {progress : Progress} {next : Machine → Pass}
    (first : Reaches board limits machine progress.machine)
    (rest : ∀ middle, Reaches board limits middle (next middle).machine) :
    Reaches board limits machine (progress.intoPass next).machine := by
  cases progress with
  | done middle => exact first.trans (rest middle)
  | stopped fault middle => exact first

/-- However a pass ends, its end is reached; only what follows differs. -/
theorem Reaches.resolve {machine : Machine} {pass : Pass} {through satisfied : Machine → Progress}
    (first : Reaches board limits machine pass.machine)
    (again : ∀ middle, Reaches board limits middle (through middle).machine)
    (leave : ∀ middle, Reaches board limits middle (satisfied middle).machine) :
    Reaches board limits machine (pass.resolve through satisfied).machine := by
  cases pass with
  | through middle => exact first.trans (again middle)
  | satisfied middle => exact first.trans (leave middle)
  | stopped fault middle => exact first

/-- An action that fails has still cost its step. -/
theorem Reaches.action (machine : Machine) (action : Action) :
    Reaches board limits machine
      ((machine.tick limits).andThen fun machine => machine.act board action).machine := by
  cases ticked : machine.tick limits with
  | stopped fault next =>
      rw [machine_of_tick_stopped ticked]
      exact .refl machine
  | done middle =>
      rw [Progress.andThen_done]
      cases acted : middle.act board action with
      | done next => exact (Step.act ticked acted).reaches
      | stopped fault next =>
          rw [machine_of_act_stopped acted]
          exact (Step.tick ticked).reaches

theorem Reaches.repeatPass {pass : Machine → Progress}
    (h : ∀ machine, Reaches board limits machine (pass machine).machine) (count : Nat)
    (machine : Machine) : Reaches board limits machine (repeatPass pass count machine).machine := by
  induction count generalizing machine with
  | zero => exact .refl machine
  | succ count ih => exact (h machine).andThen ih

section guarded

variable {condition : Condition} {pass : Machine → Pass} {left : Nat} {machine : Machine}

theorem repeatUntil_of_sees (holds : machine.walker.sees board condition = true) :
    repeatUntil board limits condition pass left machine =
      .done (machine.emit (.leftBetween condition (limits.passes - left))) := by
  cases left <;> rw [repeatUntil, if_pos holds]

theorem repeatUntil_zero (fails : machine.walker.sees board condition = false) :
    repeatUntil board limits condition pass 0 machine =
      machine.stop (.passLimit condition limits.passes) := by
  rw [repeatUntil, if_neg (Bool.eq_false_iff.mp fails)]

theorem repeatUntil_succ (fails : machine.walker.sees board condition = false) :
    repeatUntil board limits condition pass (left + 1) machine =
      (machine.tick limits).andThen fun middle =>
        (pass middle).resolve (repeatUntil board limits condition pass left) fun last =>
          .done (last.emit (.leftMidPass condition (limits.passes - left))) := by
  rw [repeatUntil, if_neg (Bool.eq_false_iff.mp fails)]
  cases machine.tick limits with
  | stopped fault next => rfl
  | done middle =>
      rw [Progress.andThen_done]
      dsimp only
      cases pass middle <;> rfl

end guarded

theorem Reaches.repeatUntil {condition : Condition} {pass : Machine → Pass}
    (h : ∀ machine, Reaches board limits machine (pass machine).machine) (left : Nat)
    (machine : Machine) :
    Reaches board limits machine
      (repeatUntil board limits condition pass left machine).machine := by
  induction left generalizing machine with
  | zero =>
      cases seen : machine.walker.sees board condition with
      | true =>
          rw [repeatUntil_of_sees seen]
          exact Step.leftBetween.reaches
      | false =>
          rw [repeatUntil_zero seen]
          exact .refl machine
  | succ left ih =>
      cases seen : machine.walker.sees board condition with
      | true =>
          rw [repeatUntil_of_sees seen]
          exact Step.leftBetween.reaches
      | false =>
          rw [repeatUntil_succ seen]
          refine (Reaches.tick machine).andThen fun middle => (h middle).resolve ih ?_
          exact fun last => Step.leftMidPass.reaches

theorem watch_cons (condition : Condition) (command : Command) (rest : List Command)
    (machine : Machine) :
    watch board limits condition (command :: rest) machine =
      (exec board limits command machine).intoPass fun middle =>
        if middle.walker.sees board condition then .satisfied middle
        else watch board limits condition rest middle := by
  rw [watch]
  cases exec board limits command machine <;> rfl

mutual

theorem reaches_exec (command : Command) (machine : Machine) :
    Reaches board limits machine (exec board limits command machine).machine := by
  match command with
  | .act action => exact .action machine action
  | .loop (.counted times) body =>
      refine (Reaches.tick machine).andThen fun middle => .repeatPass ?_ times.toNat middle
      intro start
      exact (Reaches.tick start).andThen (reaches_execBlock body)
  | .loop (.guarded condition) body =>
      refine (Reaches.tick machine).andThen fun middle => .repeatUntil ?_ limits.passes middle
      exact reaches_watch condition body

theorem reaches_execBlock (block : List Command) (machine : Machine) :
    Reaches board limits machine (execBlock board limits block machine).machine := by
  match block with
  | [] => exact .refl machine
  | command :: rest => exact (reaches_exec command machine).andThen (reaches_execBlock rest)

theorem reaches_watch (condition : Condition) (block : List Command) (machine : Machine) :
    Reaches board limits machine (watch board limits condition block machine).machine := by
  match block with
  | [] => exact .refl machine
  | command :: rest =>
      rw [watch_cons]
      refine (reaches_exec command machine).intoPass fun middle => ?_
      split
      · exact .refl middle
      · exact reaches_watch condition rest middle

end

end Machine

namespace Program

def starting (program : Program) (walker : Walker) : Machine :=
  (Machine.ofWalker walker).emit (.started program.length walker.toStance)

theorem run_eq (board : Board) (limits : Limits) (program : Program) (walker : Walker) :
    program.run board limits walker =
      (Machine.execBlock board limits program (program.starting walker)).andThen fun machine =>
        .done (machine.emit
          (.finished machine.walker.toStance machine.walker.moves.size machine.steps)) := rfl

theorem walker_run (board : Board) (limits : Limits) (program : Program) (walker : Walker) :
    (program.run board limits walker).machine.walker =
      (Machine.execBlock board limits program (program.starting walker)).machine.walker := by
  rw [run_eq]
  cases Machine.execBlock board limits program (program.starting walker) <;> rfl

end Program
end Boardwalk
