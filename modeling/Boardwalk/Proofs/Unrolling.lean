import Boardwalk.Proofs.StepCount

/-!
# Counted loops are copies of their blocks

A counted loop does what as many copies of its block do, or as many runs of the block
alone, and the copies take fewer steps. Nothing but running out of steps can tell them
apart, as long as nobody looks at the walker between two commands of the block. The
block of a guarded loop is watched in just that way, so a counted loop is not unrolled
into such a block; in every other place it is.
-/
namespace Boardwalk

/-- Whether a loop looks at the walker after every command of its block. -/
def Loop.watches : Loop → Bool
  | .counted _ => false
  | .guarded _ => true

namespace Program

def copies (times : Nat) (body : Program) : Program := (List.replicate times body).flatten

/-- Runs a program a number of times, each time from the first step, up to the first fault. -/
def runTimes (board : Board) (limits : Limits) (program : Program) :
    Nat → Walker → Walker × Option Fault
  | 0, walker => (walker, none)
  | times + 1, walker =>
    match program.run board limits walker with
    | .done machine => runTimes board limits program times machine.walker
    | .stopped fault machine => (machine.walker, some fault)

/-- One counted loop, at any depth of a block, gives way to copies of its own block. The flag tells
whether the outer block is watched; then the loop has to stand deeper. -/
inductive Unrolls : Bool → Program → Program → Prop
  | splice {times : UInt32} {body : Program} (before after : Program) :
      Unrolls false (before ++ [.loop (.counted times) body] ++ after)
        (before ++ copies times.toNat body ++ after)
  | inside {watched : Bool} {how : Loop} {body unrolled : Program} (before after : Program) :
      Unrolls how.watches body unrolled →
      Unrolls watched (before ++ [.loop how body] ++ after)
        (before ++ [.loop how unrolled] ++ after)

end Program

namespace Machine

variable {board : Board} {limits : Limits}

theorem matchedBy_execBlock_replace {first second : Program}
    (h : ∀ a b, a.Richer limits b →
      (execBlock board limits first a).MatchedBy limits (execBlock board limits second b))
    (before after : Program) {a b : Machine} (start : a.Richer limits b) :
    (execBlock board limits (before ++ first ++ after) a).MatchedBy limits
      (execBlock board limits (before ++ second ++ after) b) := by
  simp only [execBlock_append]
  apply Progress.MatchedBy.andThen
  · apply (matchedBy_execBlock before start).andThen
    exact h
  · intro a b richer
    exact matchedBy_execBlock after richer

theorem execBlock_singleton (command : Command) (machine : Machine) :
    execBlock board limits [command] machine = exec board limits command machine := by
  rw [execBlock]
  cases exec board limits command machine <;> rfl

theorem matchedBy_watch_replace {first second : Command}
    (h : ∀ a b, a.Richer limits b →
      (exec board limits first a).MatchedBy limits (exec board limits second b))
    (condition : Condition) (before after : Program) {a b : Machine} (start : a.Richer limits b) :
    (watch board limits condition (before ++ [first] ++ after) a).MatchedBy limits
      (watch board limits condition (before ++ [second] ++ after) b) := by
  induction before generalizing a b with
  | nil =>
      rw [List.nil_append, List.nil_append, List.singleton_append, List.singleton_append,
        watch_cons, watch_cons]
      apply (h a b start).intoPass
      intro a b richer
      rw [richer.sees condition]
      split
      · exact .satisfied richer
      · exact matchedBy_watch condition after richer
  | cons command before ih =>
      simp only [List.cons_append, watch_cons]
      apply (matchedBy_exec command start).intoPass
      intro a b richer
      rw [richer.sees condition]
      split
      · exact .satisfied richer
      · exact ih richer

/-- Each pass of the loop costs a step more than the copy that stands for it. -/
theorem matchedBy_copies (body : Program) (count : Nat) {a b : Machine}
    (start : a.Richer limits b) :
    (repeatPass (fullPass board limits body) count a).MatchedBy limits
      (execBlock board limits (Program.copies count body) b) := by
  induction count generalizing a b with
  | zero => exact .done start
  | succ count ih =>
      rw [Program.copies, List.replicate_succ, List.flatten_cons, execBlock_append, repeatPass]
      apply Progress.MatchedBy.andThen
      · apply (matchedBy_tick_left start).andThen
        intro a b richer
        exact matchedBy_execBlock body richer
      · intro a b richer
        exact ih richer

theorem matchedBy_unrolled (times : UInt32) (body : Program) {a b : Machine}
    (start : a.Richer limits b) :
    (exec board limits (.loop (.counted times) body) a).MatchedBy limits
      (execBlock board limits (Program.copies times.toNat body) b) := by
  rw [exec_counted]
  apply (matchedBy_tick_left start).andThen
  intro a b richer
  exact matchedBy_copies body times.toNat richer

theorem matchedBy_loop {how : Loop} {body unrolled : Program}
    (block : ∀ a b, a.Richer limits b →
      (execBlock board limits body a).MatchedBy limits (execBlock board limits unrolled b))
    (watched : how.watches = true → ∀ condition a b, a.Richer limits b →
      (watch board limits condition body a).MatchedBy limits
        (watch board limits condition unrolled b))
    (a b : Machine) (start : a.Richer limits b) :
    (exec board limits (.loop how body) a).MatchedBy limits
      (exec board limits (.loop how unrolled) b) := by
  cases how with
  | counted times =>
      rw [exec_counted, exec_counted]
      apply (matchedBy_tick start).andThen
      intro a b richer
      refine matchedBy_repeatPass ?_ times.toNat richer
      intro a b pass
      exact (matchedBy_tick pass).andThen block
  | guarded condition =>
      rw [exec_guarded, exec_guarded]
      apply (matchedBy_tick start).andThen
      intro a b richer
      exact matchedBy_repeatUntil (watched rfl condition) limits.passes richer

/-- Wherever the loop stands, the block around it is run alike; if it stands deeper than the block
itself, the block is also watched alike. -/
theorem matchedBy_of_unrolls {watched : Bool} {block unrolled : Program}
    (h : Program.Unrolls watched block unrolled) :
    (∀ a b, a.Richer limits b →
      (execBlock board limits block a).MatchedBy limits (execBlock board limits unrolled b)) ∧
    (watched = true → ∀ condition a b, a.Richer limits b →
      (watch board limits condition block a).MatchedBy limits
        (watch board limits condition unrolled b)) := by
  induction h with
  | splice before after =>
      constructor
      · intro a b start
        apply matchedBy_execBlock_replace ?_ before after start
        intro a b richer
        rw [execBlock_singleton]
        exact matchedBy_unrolled _ _ richer
      · intro impossible
        cases impossible
  | inside before after deeper ih =>
      have loop := matchedBy_loop ih.1 ih.2
      constructor
      · intro a b start
        apply matchedBy_execBlock_replace ?_ before after start
        intro a b richer
        rw [execBlock_singleton, execBlock_singleton]
        exact loop a b richer
      · intro _ condition a b start
        exact matchedBy_watch_replace loop condition before after start

end Machine

namespace Program

variable {board : Board} {limits : Limits}

theorem outcome_run (program : Program) (walker : Walker) :
    (program.run board limits walker).outcome =
      (Machine.execBlock board limits program (program.starting walker)).outcome := by
  rw [run_eq]
  cases Machine.execBlock board limits program (program.starting walker) <;> rfl

theorem ranOut_run (program : Program) (walker : Walker) :
    (program.run board limits walker).ranOut =
      (Machine.execBlock board limits program (program.starting walker)).ranOut := by
  rw [run_eq]
  cases Machine.execBlock board limits program (program.starting walker) <;> rfl

/-- The count starts anew with every run, so each run has at least the steps of its pass left. -/
theorem outcome_repeatPass (body : Program) (count : Nat) {machine : Machine}
    (room : machine.steps ≤ limits.steps)
    (enough : (Machine.repeatPass (Machine.fullPass board limits body) count machine).ranOut =
      false) :
    (Machine.repeatPass (Machine.fullPass board limits body) count machine).outcome =
      runTimes board limits body count machine.walker := by
  induction count generalizing machine with
  | zero => rfl
  | succ count ih =>
      have richer : machine.Richer limits (body.starting machine.walker) :=
        ⟨rfl, .inr ⟨Nat.zero_le _, room⟩⟩
      have matched : (Machine.fullPass board limits body machine).MatchedBy limits
          (Machine.execBlock board limits body (body.starting machine.walker)) := by
        apply (Machine.matchedBy_tick_left richer).andThen
        intro a b start
        exact Machine.matchedBy_execBlock body start
      have reached : Machine.Reaches board limits machine
          (Machine.fullPass board limits body machine).machine :=
        (Machine.Reaches.tick machine).andThen (Machine.reaches_execBlock body)
      rw [Machine.repeatPass] at enough ⊢
      rw [runTimes, run_eq]
      generalize Machine.fullPass board limits body machine = pass at *
      generalize Machine.execBlock board limits body (body.starting machine.walker) = alone at *
      cases matched with
      | @done last _ next =>
          have bound : last.steps ≤ limits.steps := reached.steps_le_limit room
          rw [Progress.andThen_done] at enough ⊢
          rw [ih bound enough, ← next.walker]
          rfl
      | stopped same => exact congrArg (·, some _) same.symm
      | ranOut => cases enough

theorem outcome_exec_counted (times : UInt32) (body : Program) {machine : Machine}
    (room : machine.steps ≤ limits.steps)
    (enough : (Machine.exec board limits (.loop (.counted times) body) machine).ranOut = false) :
    (Machine.exec board limits (.loop (.counted times) body) machine).outcome =
      runTimes board limits body times.toNat machine.walker := by
  rw [Machine.exec_counted] at enough ⊢
  by_cases full : machine.steps = limits.steps
  · rw [Machine.tick_of_full full] at enough
    cases enough
  · rw [Machine.tick_of_room full, Progress.andThen_done] at enough ⊢
    exact outcome_repeatPass body times.toNat (Nat.lt_of_le_of_ne room full) enough

theorem outcome_eq_of_unrolls {program unrolled : Program} (h : Unrolls false program unrolled)
    {walker : Walker} (enough : (program.run board limits walker).ranOut = false) :
    (program.run board limits walker).outcome = (unrolled.run board limits walker).outcome := by
  have start : (program.starting walker).Richer limits (unrolled.starting walker) :=
    ⟨rfl, .inr ⟨Nat.le_refl _, Nat.zero_le _⟩⟩
  rw [ranOut_run] at enough
  rw [outcome_run, outcome_run]
  exact ((Machine.matchedBy_of_unrolls h).1 _ _ start).outcome_eq enough

/-- Unless it runs out of steps, a counted loop comes to what as many runs of its block come to, one
after the other up to the first fault, and to what the copies of its block in one program come to.
The copies can stand for the loop in any program, except directly in the block of a guarded
loop. -/
theorem counted_loop_unrolls (board : Board) (limits : Limits) :
    (∀ (times : UInt32) (body : Program) (walker : Walker),
      let looped := run board limits [.loop (.counted times) body] walker
      looped.ranOut = false →
        looped.outcome = runTimes board limits body times.toNat walker ∧
        looped.outcome = (run board limits (copies times.toNat body) walker).outcome) ∧
    ∀ (program unrolled : Program) (walker : Walker), Unrolls false program unrolled →
      (program.run board limits walker).ranOut = false →
        (program.run board limits walker).outcome =
          (unrolled.run board limits walker).outcome := by
  constructor
  · intro times body walker looped enough
    constructor
    · have alone : (Machine.exec board limits (.loop (.counted times) body)
          (starting [.loop (.counted times) body] walker)).ranOut = false := by
        rw [← Machine.execBlock_singleton, ← ranOut_run]
        exact enough
      rw [outcome_run, Machine.execBlock_singleton]
      exact outcome_exec_counted times body (Nat.zero_le _) alone
    · have whole : Unrolls false [.loop (.counted times) body]
          ([] ++ copies times.toNat body ++ []) := .splice [] []
      rw [List.nil_append, List.append_nil] at whole
      exact outcome_eq_of_unrolls whole enough
  · intro program unrolled walker h enough
    exact outcome_eq_of_unrolls h enough

/-- A loop in a loop below a guarded one is unrolled, and a loop that leaves the board in its second
pass fails like two runs of its block. -/
theorem nested_loop_unrolled :
    let inner : Program := [.loop (.counted 2) [.act (.move 1)]]
    let nested : Program := [.loop (.guarded .gridEdge) [.loop (.counted 1) inner]]
    let flat : Program :=
      [.loop (.guarded .gridEdge) [.loop (.counted 1) [.act (.move 1), .act (.move 1)]]]
    let walk : Program := [.act (.move 3), .act (.turn .right), .act (.turn .left)]
    (nested.run (.blank 5) .standard .fresh).outcome =
        (flat.run (.blank 5) .standard .fresh).outcome ∧
      (run (.blank 5) .standard [.loop (.counted 2) walk] .fresh).outcome =
        runTimes (.blank 5) .standard walk 2 .fresh ∧
      (runTimes (.blank 5) .standard walk 2 .fresh).2 =
        some ⟨.offBoard ⟨6, 0⟩, ⟨⟨3, 0⟩, .east⟩⟩ := by
  intro inner nested flat walk
  have deeper : Unrolls false inner [.act (.move 1), .act (.move 1)] := .splice [] []
  have unrolls : Unrolls false nested flat := .inside [] [] (.inside [] [] deeper)
  have laws := counted_loop_unrolls (.blank 5) .standard
  refine ⟨laws.2 nested flat .fresh unrolls ?_, (laws.1 2 walk .fresh ?_).1, ?_⟩
  · decide +kernel
  · decide +kernel
  · decide +kernel

/-- Directly in the block of a guarded loop the copies are watched one by one, and the loop is left
between them. -/
example :
    (run (.blank 4) .standard
        [.loop (.guarded .gridEdge) [.loop (.counted 2) [.act (.move 1)]]] .fresh).outcome ≠
      (run (.blank 4) .standard
        [.loop (.guarded .gridEdge) [.act (.move 1), .act (.move 1)]] .fresh).outcome := by
  decide +kernel

end Program
end Boardwalk
