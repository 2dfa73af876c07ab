import Boardwalk.Proofs.StepCount

/-!
# Where guarded loops stop

A guarded loop goes through its block round and round and looks at its condition
wherever one command ends and the next begins. The walkers at these places form a
sequence which only depends on where the loop starts, with one index that counts
commands and not passes. The loop ends at the first of them that sees the condition,
unless a command fails, a step is refused or the passes are used up before; the passes
are used up after a whole number of rounds.
-/
namespace Boardwalk

/-- A command takes one walker to another and does not fail, from some count of steps. -/
def Command.Completes (board : Board) (limits : Limits) (command : Command) (a b : Walker) : Prop :=
  ∃ before after : Machine, before.walker = a ∧
    Machine.exec board limits command before = .done after ∧ after.walker = b

/-- The walkers between the commands of a block that is gone through round and round. -/
def Program.Rounds (board : Board) (limits : Limits) (body : Program) (s : Nat → Walker)
    (count : Nat) : Prop :=
  ∀ j < count, ∃ command, body[j % body.length]? = some command ∧
    command.Completes board limits (s j) (s (j + 1))

/-- After a number of commands the walker is the one given, and the condition never held before. -/
def Program.Arrives (board : Board) (limits : Limits) (condition : Condition) (body : Program)
    (start : Walker) (count : Nat) (walker : Walker) : Prop :=
  ∃ s, s 0 = start ∧ s count = walker ∧ body.Rounds board limits s count ∧
    ∀ j < count, (s j).sees board condition = false

variable {board : Board} {limits : Limits} {condition : Condition} {body : Program}
  {start : Walker}

/-- How many steps were counted makes no difference to what a command that goes through does. -/
theorem Command.Completes.unique {command : Command} {a b c : Walker}
    (first : command.Completes board limits a b) (second : command.Completes board limits a c) :
    b = c := by
  obtain ⟨m, m', rfl, done, rfl⟩ := first
  obtain ⟨n, n', same, done', rfl⟩ := second
  have agree {x y x' y' : Machine} (richer : x.Richer limits y)
      (hx : Machine.exec board limits command x = .done x')
      (hy : Machine.exec board limits command y = .done y') : y'.walker = x'.walker := by
    have matched : (Machine.exec board limits command x).MatchedBy limits
        (Machine.exec board limits command y) := Machine.matchedBy_exec command richer
    rw [hx, hy] at matched
    cases matched with
    | done next => exact next.walker
  rcases Machine.Richer.total same.symm with richer | richer
  · exact (agree richer done done').symm
  · exact agree richer done' done

namespace Program

theorem Rounds.unique {s t : Nat → Walker} {count : Nat} (hs : body.Rounds board limits s count)
    (ht : body.Rounds board limits t count) (same : s 0 = t 0) : ∀ j ≤ count, s j = t j := by
  intro j
  induction j with
  | zero =>
      intro _
      exact same
  | succ j ih =>
      intro inside
      obtain ⟨command, at_j, first⟩ := hs j inside
      obtain ⟨other, at_j', second⟩ := ht j inside
      rw [at_j] at at_j'
      cases at_j'
      rw [ih (Nat.le_of_lt inside)] at first
      exact first.unique second

theorem Arrives.zero (walker : Walker) :
    body.Arrives board limits condition walker 0 walker := by
  refine ⟨fun _ => walker, rfl, rfl, ?_, ?_⟩
  · intro j impossible
    exact absurd impossible (Nat.not_lt_zero j)
  · intro j impossible
    exact absurd impossible (Nat.not_lt_zero j)

theorem Arrives.next {count : Nat} {a b : Walker} {command : Command}
    (h : body.Arrives board limits condition start count a)
    (fails : a.sees board condition = false) (here : body[count % body.length]? = some command)
    (completes : command.Completes board limits a b) :
    body.Arrives board limits condition start (count + 1) b := by
  obtain ⟨s, first, rfl, rounds, unmet⟩ := h
  have kept {j : Nat} (before : j ≤ count) : Function.update s (count + 1) b j = s j :=
    Function.update_of_ne (by omega) b s
  have last : Function.update s (count + 1) b (count + 1) = b := Function.update_self _ _ _
  refine ⟨Function.update s (count + 1) b, ?_, last, ?_, ?_⟩
  · rw [kept (Nat.zero_le _), first]
  · intro j inside
    by_cases new : j = count
    · subst new
      rw [kept (Nat.le_refl _), last]
      exact ⟨command, here, completes⟩
    · rw [kept (show j ≤ count by omega), kept (show j + 1 ≤ count by omega)]
      exact rounds j (by omega)
  · intro j inside
    rw [kept (show j ≤ count by omega)]
    by_cases new : j = count
    · rw [new]
      exact fails
    · exact unmet j (by omega)

theorem Arrives.exists_states {count : Nat} {walker : Walker}
    (h : body.Arrives board limits condition start count walker)
    (fails : walker.sees board condition = false) :
    ∃ s, s 0 = start ∧ body.Rounds board limits s count ∧
      (∀ j ≤ count, (s j).sees board condition = false) ∧ walker = s count := by
  obtain ⟨s, first, last, rounds, unmet⟩ := h
  refine ⟨s, first, rounds, ?_, last.symm⟩
  intro j inside
  by_cases new : j = count
  · rw [new, last]
    exact fails
  · exact unmet j (Nat.lt_of_le_of_ne inside new)

/-- A command of the block fails at a boundary up to which the condition never held. -/
def FailsAt (board : Board) (limits : Limits) (condition : Condition) (body : Program)
    (start : Walker) (count : Nat) (fault : Fault) (next : Machine) : Prop :=
  ∃ before command, body.Arrives board limits condition start count before.walker ∧
    before.walker.sees board condition = false ∧ body[count % body.length]? = some command ∧
    Machine.exec board limits command before = .stopped fault next

/-- What the rest of a block comes to, if `last` is the boundary behind it. -/
def PassEnds (board : Board) (limits : Limits) (condition : Condition) (body : Program)
    (start : Walker) (last : Nat) (rest : Program) (machine : Machine) : Pass → Prop
  | .through next => body.Arrives board limits condition start last next.walker ∧
      next.walker.sees board condition = false ∧
      Machine.execBlock board limits rest machine = .done next
  | .satisfied next => ∃ count ≤ last,
      body.Arrives board limits condition start count next.walker ∧
      next.walker.sees board condition = true
  | .stopped fault next => ∃ count < last,
      body.FailsAt board limits condition start count fault next

theorem PassEnds.cons {last : Nat} {command : Command} {rest : Program} {machine next : Machine}
    {pass : Pass} (h : body.PassEnds board limits condition start last rest next pass)
    (ran : Machine.exec board limits command machine = .done next) :
    body.PassEnds board limits condition start last (command :: rest) machine pass := by
  cases pass with
  | through final =>
      obtain ⟨arrived, fails, block⟩ := h
      refine ⟨arrived, fails, ?_⟩
      rw [Machine.execBlock, ran]
      exact block
  | satisfied final => exact h
  | stopped fault final => exact h

/-- What a loop comes to that starts at `origin` and may make a number of passes. -/
def LoopEnds (board : Board) (limits : Limits) (condition : Condition) (body : Program)
    (origin : Machine) (passes : Nat) : Progress → Prop
  | .done next => ∃ count ≤ passes * body.length,
      body.Arrives board limits condition origin.walker count next.walker ∧
      next.walker.sees board condition = true
  | .stopped fault next =>
      (fault = ⟨.passLimit condition limits.passes, next.walker.toStance⟩ ∧
        Machine.repeatPass (Machine.fullPass board limits body) passes origin = .done next ∧
        body.Arrives board limits condition origin.walker (passes * body.length) next.walker ∧
        next.walker.sees board condition = false) ∨
      (∃ round < passes, fault = ⟨.stepLimit limits.steps, next.walker.toStance⟩ ∧
        body.Arrives board limits condition origin.walker (round * body.length) next.walker ∧
        next.walker.sees board condition = false) ∨
      ∃ count < passes * body.length,
        body.FailsAt board limits condition origin.walker count fault next

end Program

namespace Machine

/-- The commands before the rest of the block have been carried out in this round. -/
theorem passEnds_watch (round : Nat) {before rest : Program} (split : before ++ rest = body)
    {machine : Machine}
    (arrived : body.Arrives board limits condition start (round * body.length + before.length)
      machine.walker)
    (fails : machine.walker.sees board condition = false) :
    body.PassEnds board limits condition start ((round + 1) * body.length) rest machine
      (watch board limits condition rest machine) := by
  induction rest generalizing before machine with
  | nil =>
      rw [List.append_nil] at split
      rw [split, ← Nat.succ_mul] at arrived
      exact ⟨arrived, fails, rfl⟩
  | cons command rest ih =>
      have length : body.length = before.length + (rest.length + 1) := by
        rw [← split, List.length_append, List.length_cons]
      have place : (round * body.length + before.length) % body.length = before.length := by
        exact Nat.mul_add_mod_of_lt (by omega)
      have here : body[(round * body.length + before.length) % body.length]? = some command := by
        rw [place, ← split]
        simp
      have bound : round * body.length + before.length < (round + 1) * body.length := by
        rw [Nat.succ_mul]
        omega
      rw [watch_cons]
      cases ran : exec board limits command machine with
      | stopped fault next => exact ⟨_, bound, machine, command, arrived, fails, here, ran⟩
      | done next =>
          have later := arrived.next fails here ⟨machine, next, rfl, ran, rfl⟩
          cases seen : next.walker.sees board condition with
          | true =>
              rw [Progress.intoPass, seen, if_pos rfl]
              exact ⟨_, bound, later, seen⟩
          | false =>
              have longer : before ++ [command] ++ rest = body := by
                rw [List.append_assoc, List.singleton_append, split]
              have counted : before.length + 1 = (before ++ [command]).length := by
                rw [List.length_append, List.length_singleton]
              rw [Nat.add_assoc, counted] at later
              rw [Progress.intoPass, seen, if_neg Bool.false_ne_true]
              exact (ih longer later seen).cons ran

theorem exists_tick_of_room {machine : Machine} (room : machine.steps ≠ limits.steps) :
    ∃ ticked, machine.tick limits = .done ticked ∧ ticked.walker = machine.walker :=
  ⟨_, tick_of_room room, rfl⟩

/-- The passes made so far were full ones, and `left` more may be made. -/
theorem loopEnds_repeatUntil {origin machine : Machine} {made : Nat} (left : Nat)
    (full : repeatPass (fullPass board limits body) made origin = .done machine)
    (arrived : body.Arrives board limits condition origin.walker (made * body.length)
      machine.walker) :
    body.LoopEnds board limits condition origin (made + left)
      (repeatUntil board limits condition (watch board limits condition body) left machine) := by
  induction left generalizing made machine with
  | zero =>
      cases seen : machine.walker.sees board condition with
      | true =>
          rw [repeatUntil_of_sees seen]
          exact ⟨_, Nat.le_refl _, arrived, seen⟩
      | false =>
          rw [repeatUntil_zero seen]
          exact .inl ⟨rfl, full, arrived, seen⟩
  | succ left ih =>
      cases seen : machine.walker.sees board condition with
      | true =>
          rw [repeatUntil_of_sees seen]
          exact ⟨_, Nat.mul_le_mul_right _ (Nat.le_add_right _ _), arrived, seen⟩
      | false =>
          rw [repeatUntil_succ seen]
          by_cases spent : machine.steps = limits.steps
          · rw [tick_of_full spent]
            exact .inr (.inl ⟨made, by omega, rfl, arrived, seen⟩)
          · obtain ⟨ticked, tick, walker⟩ := exists_tick_of_room spent
            rw [← walker] at arrived seen
            have ends := passEnds_watch made (List.nil_append body) arrived seen
            have bound : (made + 1) * body.length ≤ (made + (left + 1)) * body.length :=
              Nat.mul_le_mul_right _ (by omega)
            rw [tick, Progress.andThen_done]
            cases passed : watch board limits condition body ticked with
            | through next =>
                rw [passed] at ends
                obtain ⟨arrived, fails, block⟩ := ends
                have oneMore : repeatPass (fullPass board limits body) (made + 1) origin =
                    .done next := by
                  rw [repeatPass_add, full, Progress.andThen_done, repeatPass, fullPass, tick,
                    Progress.andThen_done, block]
                  rfl
                rw [show made + (left + 1) = made + 1 + left by omega]
                exact ih oneMore arrived
            | satisfied next =>
                rw [passed] at ends
                obtain ⟨count, inside, arrived, holds⟩ := ends
                exact ⟨count, Nat.le_trans inside bound, arrived, holds⟩
            | stopped fault next =>
                rw [passed] at ends
                obtain ⟨count, inside, failed⟩ := ends
                exact .inr (.inr ⟨count, Nat.lt_of_lt_of_le inside bound, failed⟩)

theorem loopEnds_of_guarded (machine : Machine) :
    body.LoopEnds board limits condition machine limits.passes
      (repeatUntil board limits condition (watch board limits condition body) limits.passes
        machine) := by
  have arrived : body.Arrives board limits condition machine.walker (0 * body.length)
      machine.walker := by
    rw [Nat.zero_mul]
    exact .zero machine.walker
  have ends := loopEnds_repeatUntil limits.passes rfl arrived
  rw [Nat.zero_add] at ends
  exact ends

theorem sees_of_repeatUntil_done {machine next : Machine}
    (done : repeatUntil board limits condition (watch board limits condition body) limits.passes
      machine = .done next) : next.walker.sees board condition = true := by
  have ends := @loopEnds_of_guarded board limits condition body machine
  rw [done] at ends
  obtain ⟨_, _, _, holds⟩ := ends
  exact holds

theorem sees_of_guarded_done {machine next : Machine}
    (done : exec board limits (.loop (.guarded condition) body) machine = .done next) :
    next.walker.sees board condition = true := by
  rw [exec_guarded] at done
  cases ticked : machine.tick limits with
  | stopped fault middle =>
      rw [ticked] at done
      cases done
  | done middle =>
      rw [ticked] at done
      exact sees_of_repeatUntil_done done

/-- Where the condition holds, a guarded loop costs one step and does nothing. -/
theorem exec_guarded_of_sees (body : Program) {machine : Machine}
    (holds : machine.walker.sees board condition = true) :
    (exec board limits (.loop (.guarded condition) body) machine).machine.walker =
        machine.walker ∧
      (machine.steps ≠ limits.steps →
        (exec board limits (.loop (.guarded condition) body) machine).fault? = none) := by
  rw [exec_guarded]
  by_cases spent : machine.steps = limits.steps
  · rw [tick_of_full spent]
    exact ⟨rfl, fun room => absurd spent room⟩
  · obtain ⟨ticked, tick, walker⟩ := exists_tick_of_room spent
    rw [← walker] at holds ⊢
    rw [tick, Progress.andThen_done, repeatUntil_of_sees holds]
    exact ⟨rfl, fun _ => rfl⟩

theorem eq_of_repeatUntil_empty_done {machine next : Machine}
    (done : repeatUntil board limits condition (watch board limits condition []) limits.passes
      machine = .done next) :
    machine.walker.sees board condition = true ∧ next.walker = machine.walker ∧
      next.steps = machine.steps := by
  have ends := @loopEnds_of_guarded board limits condition [] machine
  rw [done] at ends
  obtain ⟨count, inside, ⟨s, first, last, -, -⟩, holds⟩ := ends
  have none : count = 0 := Nat.le_zero.mp inside
  rw [none, first] at last
  rw [← last] at holds
  rw [repeatUntil_of_sees holds] at done
  cases done
  exact ⟨holds, rfl, rfl⟩

/-- A guarded loop goes through its block round and round. If it goes through, it does so at the
first boundary that sees the condition, and that within the rounds allowed. If it gives up by
itself, all of them were made and no boundary saw the condition. If it fails otherwise, that was
at a boundary up to which the condition never held: at the start of a round no step was left, or
the command that begins there failed. With an empty block only a condition that holds at once
lets it through. Behind a loop that went through the condition holds, so that a second loop with
the same condition changes nothing. -/
theorem guarded_loop_stops_at_first_boundary (board : Board) (limits : Limits)
    (condition : Condition) (body : Program) (machine : Machine) :
    let loop := repeatUntil board limits condition (watch board limits condition body) limits.passes
    let whole := limits.passes * body.length
    (∀ s t count, body.Rounds board limits s count → body.Rounds board limits t count →
      s 0 = t 0 → ∀ j ≤ count, s j = t j) ∧
    (∀ next, loop machine = .done next → ∃ s count, s 0 = machine.walker ∧ count ≤ whole ∧
      body.Rounds board limits s count ∧ (∀ j < count, (s j).sees board condition = false) ∧
      (s count).sees board condition = true ∧ next.walker = s count) ∧
    (∀ fault next, loop machine = .stopped fault next → ∃ s, s 0 = machine.walker ∧
      ((fault = ⟨.passLimit condition limits.passes, next.walker.toStance⟩ ∧
          repeatPass (fullPass board limits body) limits.passes machine = .done next ∧
          body.Rounds board limits s whole ∧ (∀ j ≤ whole, (s j).sees board condition = false) ∧
          next.walker = s whole) ∨
        ∃ count ≤ whole, body.Rounds board limits s count ∧
          (∀ j ≤ count, (s j).sees board condition = false) ∧
          ((fault = ⟨.stepLimit limits.steps, next.walker.toStance⟩ ∧ body.length ∣ count ∧
              next.walker = s count) ∨
            ∃ before command, before.walker = s count ∧
              body[count % body.length]? = some command ∧
              exec board limits command before = .stopped fault next))) ∧
    (body = [] → ∀ next, loop machine = .done next →
      machine.walker.sees board condition = true ∧ next.walker = machine.walker ∧
        next.steps = machine.steps) ∧
    ∀ next, exec board limits (.loop (.guarded condition) body) machine = .done next →
      next.walker.sees board condition = true ∧ ∀ again,
        (exec board limits (.loop (.guarded condition) again) next).machine.walker =
            next.walker ∧
          (next.steps ≠ limits.steps →
            (exec board limits (.loop (.guarded condition) again) next).fault? = none) := by
  intro loop whole
  have ends : body.LoopEnds board limits condition machine limits.passes (loop machine) :=
    loopEnds_of_guarded machine
  refine ⟨fun s t count hs ht => hs.unique ht, ?_, ?_, ?_, ?_⟩
  · intro next done
    rw [done] at ends
    obtain ⟨count, inside, ⟨s, first, last, rounds, unmet⟩, holds⟩ := ends
    rw [← last] at holds
    exact ⟨s, count, first, inside, rounds, unmet, holds, last.symm⟩
  · intro fault next stopped
    rw [stopped] at ends
    rcases ends with ⟨own, full, arrived, fails⟩ | ⟨round, inside, refused, arrived, fails⟩ |
      ⟨count, inside, before, command, arrived, fails, here, failed⟩
    · obtain ⟨s, first, rounds, unmet, last⟩ := arrived.exists_states fails
      exact ⟨s, first, .inl ⟨own, full, rounds, unmet, last⟩⟩
    · obtain ⟨s, first, rounds, unmet, last⟩ := arrived.exists_states fails
      have bound : round * body.length ≤ whole := Nat.mul_le_mul_right _ (Nat.le_of_lt inside)
      exact ⟨s, first, .inr ⟨_, bound, rounds, unmet,
        .inl ⟨refused, Nat.dvd_mul_left _ _, last⟩⟩⟩
    · obtain ⟨s, first, rounds, unmet, last⟩ := arrived.exists_states fails
      exact ⟨s, first, .inr ⟨count, Nat.le_of_lt inside, rounds, unmet,
        .inr ⟨before, command, last, here, failed⟩⟩⟩
  · intro empty next done
    subst empty
    exact eq_of_repeatUntil_empty_done done
  · intro next done
    have holds := sees_of_guarded_done done
    exact ⟨holds, fun again => exec_guarded_of_sees again holds⟩

/-- A loop over two moves is left between them, in its second round. -/
theorem guarded_loop_left_mid_pass :
    let body : Program := [.act (.move 1), .act (.move 1)]
    let loop := repeatUntil (.blank 4) ⟨2, 20⟩ .gridEdge (watch (.blank 4) ⟨2, 20⟩ .gridEdge body) 2
    (loop (.ofWalker .fresh)).fault? = none ∧
      (loop (.ofWalker .fresh)).machine.walker.position = ⟨3, 0⟩ ∧
      ∃ s count, s 0 = Walker.fresh ∧ count ≤ 4 ∧ body.Rounds (.blank 4) ⟨2, 20⟩ s count ∧
        (∀ j < count, (s j).sees (.blank 4) .gridEdge = false) ∧
        (s count).sees (.blank 4) .gridEdge = true ∧
        (loop (.ofWalker .fresh)).machine.walker = s count := by
  intro body loop
  have through : (loop (.ofWalker .fresh)).fault? = none := by decide +kernel
  refine ⟨through, by decide +kernel, ?_⟩
  exact (guarded_loop_stops_at_first_boundary (.blank 4) ⟨2, 20⟩ .gridEdge body
    (.ofWalker .fresh)).2.1 _ (Progress.eq_done_of_fault?_eq_none through)

end Machine
end Boardwalk
