import Boardwalk.Run.Event

/-!
# Running programs

A machine is a walker in the middle of a run, with the steps taken and the events
so far. Every command takes one step when it starts, and every pass of a loop one
more. A run stops at the first fault, and whatever was done before stays done.

A guarded loop looks at its condition before every pass and after every command of
its block, and ends as soon as the condition holds.
-/
namespace Boardwalk

/-- How far a run may go. -/
structure Limits where
  /-- Passes that one guarded loop may make. -/
  passes : Nat
  /-- Steps that the whole run may take. -/
  steps : Nat
  deriving DecidableEq

/-- The limits that hold unless others are given. -/
def Limits.standard : Limits := ⟨10000, 1000000⟩

/-- A walker in the middle of a run. -/
structure Machine where
  walker : Walker
  steps : Nat
  /-- Events so far, oldest first. -/
  events : Array Event

/-- How a stretch of a run ends. -/
inductive Progress where
  | done (machine : Machine)
  | stopped (fault : Fault) (machine : Machine)

/-- How a pass through the block of a guarded loop ends. -/
inductive Pass where
  /-- It reached the end of the block, and the condition does not hold. -/
  | through (machine : Machine)
  /-- The condition held after a command. -/
  | satisfied (machine : Machine)
  | stopped (fault : Fault) (machine : Machine)

namespace Progress

def machine : Progress → Machine
  | .done machine => machine
  | .stopped _ machine => machine

def fault? : Progress → Option Fault
  | .done _ => none
  | .stopped fault _ => some fault

/-- Goes on, unless the stretch stopped. -/
@[inline] def andThen (progress : Progress) (next : Machine → Progress) : Progress :=
  match progress with
  | .done machine => next machine
  | .stopped fault machine => .stopped fault machine

@[simp] theorem andThen_done (machine : Machine) (next : Machine → Progress) :
    (Progress.done machine).andThen next = next machine := rfl

@[simp] theorem andThen_stopped (fault : Fault) (machine : Machine) (next : Machine → Progress) :
    (Progress.stopped fault machine).andThen next = .stopped fault machine := rfl

theorem andThen_assoc (progress : Progress) (f g : Machine → Progress) :
    (progress.andThen f).andThen g = progress.andThen fun machine => (f machine).andThen g := by
  cases progress <;> rfl

end Progress

namespace Machine

def ofWalker (walker : Walker) : Machine := ⟨walker, 0, #[]⟩

def emit (machine : Machine) (event : Event) : Machine :=
  match machine with
  | ⟨walker, steps, events⟩ => ⟨walker, steps, events.push event⟩

def stop (machine : Machine) (cause : Cause) : Progress :=
  .stopped ⟨cause, machine.walker.toStance⟩ machine

/-- Takes a step, if there is one left. -/
def tick (limits : Limits) (machine : Machine) : Progress :=
  if machine.steps = limits.steps then machine.stop (.stepLimit limits.steps)
  else
    match machine with
    | ⟨walker, steps, events⟩ => .done ⟨walker, steps + 1, events⟩

/-- Carries out an action and records it. -/
def act (board : Board) (machine : Machine) (action : Action) : Progress :=
  match machine, action with
  | ⟨walker, steps, events⟩, .turn side =>
    .done ⟨(walker.turn side).record action.text, steps, events⟩
  | ⟨walker, steps, events⟩, .move amount =>
    match walker.blocked? board amount with
    | some fault => .stopped fault ⟨walker, steps, events⟩
    | none =>
      let source := walker.position
      let target := walker.ahead amount
      .done ⟨(walker.goTo target).record action.text, steps,
        events.push (.moved amount source target)⟩

def repeatPass (pass : Machine → Progress) : Nat → Machine → Progress
  | 0, machine => .done machine
  | count + 1, machine => (pass machine).andThen (repeatPass pass count)

/-- Makes passes until a condition holds, of which `left` may still be made. -/
def repeatUntil (board : Board) (limits : Limits) (condition : Condition)
    (pass : Machine → Pass) : Nat → Machine → Progress
  | left, machine =>
    if machine.walker.sees board condition then
      .done (machine.emit (.leftBetween condition (limits.passes - left)))
    else
      match left with
      | 0 => machine.stop (.passLimit condition limits.passes)
      | left + 1 =>
        match machine.tick limits with
        | .stopped fault machine => .stopped fault machine
        | .done machine =>
          match pass machine with
          | .through machine => repeatUntil board limits condition pass left machine
          | .satisfied machine =>
            .done (machine.emit (.leftMidPass condition (limits.passes - left)))
          | .stopped fault machine => .stopped fault machine

mutual

def exec (board : Board) (limits : Limits) : Command → Machine → Progress
  | .act action, machine => (machine.tick limits).andThen fun machine => machine.act board action
  | .loop (.counted times) body, machine =>
    (machine.tick limits).andThen fun machine =>
      repeatPass (fun machine => (machine.tick limits).andThen fun machine =>
        execBlock board limits body machine) times.toNat machine
  | .loop (.guarded condition) body, machine =>
    (machine.tick limits).andThen fun machine =>
      repeatUntil board limits condition (fun machine => watch board limits condition body machine)
        limits.passes machine

def execBlock (board : Board) (limits : Limits) : List Command → Machine → Progress
  | [], machine => .done machine
  | command :: rest, machine =>
    (exec board limits command machine).andThen fun machine => execBlock board limits rest machine

/-- Carries out the commands of a block until a condition holds after one of them. -/
def watch (board : Board) (limits : Limits) (condition : Condition) : List Command → Machine → Pass
  | [], machine => .through machine
  | command :: rest, machine =>
    match exec board limits command machine with
    | .stopped fault machine => .stopped fault machine
    | .done machine =>
      if machine.walker.sees board condition then .satisfied machine
      else watch board limits condition rest machine

end

@[simp] theorem walker_emit (machine : Machine) (event : Event) :
    (machine.emit event).walker = machine.walker := rfl

@[simp] theorem steps_emit (machine : Machine) (event : Event) :
    (machine.emit event).steps = machine.steps := rfl

@[simp] theorem events_emit (machine : Machine) (event : Event) :
    (machine.emit event).events = machine.events.push event := rfl

/-- A run of one block after another is the run of both together. -/
theorem execBlock_append (board : Board) (limits : Limits) (a b : Program) (machine : Machine) :
    execBlock board limits (a ++ b) machine =
      (execBlock board limits a machine).andThen (execBlock board limits b) := by
  induction a generalizing machine with
  | nil => rfl
  | cons command a ih =>
    simp only [List.cons_append, execBlock, Progress.andThen_assoc]
    congr 1
    funext next
    exact ih next

theorem repeatPass_add (pass : Machine → Progress) (m n : Nat) (machine : Machine) :
    repeatPass pass (m + n) machine =
      (repeatPass pass m machine).andThen (repeatPass pass n) := by
  induction m generalizing machine with
  | zero => simp [repeatPass]
  | succ m ih =>
    rw [Nat.succ_add, repeatPass, repeatPass, Progress.andThen_assoc]
    congr 1
    funext next
    exact ih next

end Machine

namespace Program

/-- Runs a program from its first step. -/
def run (board : Board) (limits : Limits) (program : Program) (walker : Walker) : Progress :=
  let start := (Machine.ofWalker walker).emit (.started program.length walker.toStance)
  (Machine.execBlock board limits program start).andThen fun machine =>
    .done (machine.emit
      (.finished machine.walker.toStance machine.walker.moves.size machine.steps))

end Program

/-- Carries out one command from the first step, within the standard limits. -/
def Command.execute (board : Board) (command : Command) (walker : Walker) : Progress :=
  Machine.exec board .standard command (Machine.ofWalker walker)

def Program.execute (board : Board) (program : Program) (walker : Walker) : Progress :=
  program.run board .standard walker

def Progress.records (progress : Progress) : List Record :=
  progress.machine.events.toList.map Event.record

end Boardwalk
