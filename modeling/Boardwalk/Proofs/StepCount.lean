import Boardwalk.Proofs.Limits

/-!
# What the count of steps decides

Two runs from the same walker that have counted different numbers of steps do the same
until one of them has no step left. The machine with more steps left is the richer one:
its run does whatever the other run does, and only where the other one is refused a step
may it go on. A count that is over the limit is never noticed, so such a machine is
richer than any other.
-/
namespace Boardwalk

def Progress.ranOut : Progress → Bool
  | .stopped ⟨.stepLimit _, _⟩ _ => true
  | _ => false

/-- What a stretch comes to: the walker that it leaves, and its fault if there is one. -/
def Progress.outcome (progress : Progress) : Walker × Option Fault :=
  (progress.machine.walker, progress.fault?)

/-- The second machine has the same walker, and at least as many steps left. -/
structure Machine.Richer (limits : Limits) (a b : Machine) : Prop where
  walker : b.walker = a.walker
  steps : limits.steps < b.steps ∨ b.steps ≤ a.steps ∧ a.steps ≤ limits.steps

/-- The second stretch does what the first does, unless the first is refused a step. -/
inductive Progress.MatchedBy (limits : Limits) : Progress → Progress → Prop
  | done {a b : Machine} : a.Richer limits b → MatchedBy limits (.done a) (.done b)
  | stopped {fault : Fault} {a b : Machine} : b.walker = a.walker →
      MatchedBy limits (.stopped fault a) (.stopped fault b)
  | ranOut {stance : Stance} {machine : Machine} {other : Progress} :
      MatchedBy limits (.stopped ⟨.stepLimit limits.steps, stance⟩ machine) other

@[inherit_doc Progress.MatchedBy]
inductive Pass.MatchedBy (limits : Limits) : Pass → Pass → Prop
  | through {a b : Machine} : a.Richer limits b → MatchedBy limits (.through a) (.through b)
  | satisfied {a b : Machine} : a.Richer limits b → MatchedBy limits (.satisfied a) (.satisfied b)
  | stopped {fault : Fault} {a b : Machine} : b.walker = a.walker →
      MatchedBy limits (.stopped fault a) (.stopped fault b)
  | ranOut {stance : Stance} {machine : Machine} {other : Pass} :
      MatchedBy limits (.stopped ⟨.stepLimit limits.steps, stance⟩ machine) other

variable {board : Board} {limits : Limits}

namespace Progress

theorem MatchedBy.andThen {p q : Progress} {f g : Machine → Progress} (h : p.MatchedBy limits q)
    (next : ∀ a b, a.Richer limits b → (f a).MatchedBy limits (g b)) :
    (p.andThen f).MatchedBy limits (q.andThen g) := by
  cases h with
  | done richer => exact next _ _ richer
  | stopped same => exact .stopped same
  | ranOut => exact .ranOut

theorem MatchedBy.intoPass {p q : Progress} {f g : Machine → Pass} (h : p.MatchedBy limits q)
    (next : ∀ a b, a.Richer limits b → (f a).MatchedBy limits (g b)) :
    (p.intoPass f).MatchedBy limits (q.intoPass g) := by
  cases h with
  | done richer => exact next _ _ richer
  | stopped same => exact .stopped same
  | ranOut => exact .ranOut

theorem MatchedBy.outcome_eq {p q : Progress} (h : p.MatchedBy limits q)
    (enough : p.ranOut = false) : p.outcome = q.outcome := by
  cases h with
  | done richer => exact congrArg (·, none) richer.walker.symm
  | stopped same => exact congrArg (·, some _) same.symm
  | ranOut => cases enough

end Progress

theorem Pass.MatchedBy.resolve {p q : Pass} {f g leave leave' : Machine → Progress}
    (h : p.MatchedBy limits q)
    (again : ∀ a b, a.Richer limits b → (f a).MatchedBy limits (g b))
    (left : ∀ a b, a.Richer limits b → (leave a).MatchedBy limits (leave' b)) :
    (p.resolve f leave).MatchedBy limits (q.resolve g leave') := by
  cases h with
  | through richer => exact again _ _ richer
  | satisfied richer => exact left _ _ richer
  | stopped same => exact .stopped same
  | ranOut => exact .ranOut

namespace Machine

/-- Of two machines with one walker, one is the richer one. -/
theorem Richer.total {a b : Machine} (same : a.walker = b.walker) :
    a.Richer limits b ∨ b.Richer limits a := by
  by_cases first : a.Richer limits b
  · exact .inl first
  · refine .inr ⟨same, ?_⟩
    have poorer : ¬ (limits.steps < b.steps ∨ b.steps ≤ a.steps ∧ a.steps ≤ limits.steps) :=
      fun steps => first ⟨same.symm, steps⟩
    omega

theorem Richer.emit {a b : Machine} (h : a.Richer limits b) (event : Event) :
    (a.emit event).Richer limits (b.emit event) :=
  ⟨h.walker, h.steps⟩

theorem Richer.sees {a b : Machine} (h : a.Richer limits b) (condition : Condition) :
    b.walker.sees board condition = a.walker.sees board condition := by
  rw [h.walker]

theorem matchedBy_tick {a b : Machine} (h : a.Richer limits b) :
    (a.tick limits).MatchedBy limits (b.tick limits) := by
  have left := h.steps
  by_cases full : a.steps = limits.steps
  · rw [tick_of_full full]
    exact .ranOut
  · rw [tick_of_room full, tick_of_room (show b.steps ≠ limits.steps by omega)]
    refine .done ⟨h.walker, ?_⟩
    dsimp only
    omega

/-- A step that only the first machine takes makes it poorer still. -/
theorem matchedBy_tick_left {a b : Machine} (h : a.Richer limits b) :
    (a.tick limits).MatchedBy limits (.done b) := by
  have left := h.steps
  by_cases full : a.steps = limits.steps
  · rw [tick_of_full full]
    exact .ranOut
  · rw [tick_of_room full]
    refine .done ⟨h.walker, ?_⟩
    dsimp only
    omega

theorem matchedBy_act {a b : Machine} (h : a.Richer limits b) (action : Action) :
    (a.act board action).MatchedBy limits (b.act board action) := by
  cases action with
  | turn side =>
      rw [act_turn, act_turn, h.walker]
      exact .done ⟨rfl, h.steps⟩
  | move amount =>
      rw [act_move, act_move, h.walker]
      split
      case h_1 => exact .stopped h.walker
      case h_2 => exact .done ⟨rfl, h.steps⟩

def fullPass (board : Board) (limits : Limits) (body : Program) (machine : Machine) : Progress :=
  (machine.tick limits).andThen (execBlock board limits body)

theorem exec_counted (times : UInt32) (body : Program) (machine : Machine) :
    exec board limits (.loop (.counted times) body) machine =
      (machine.tick limits).andThen (repeatPass (fullPass board limits body) times.toNat) := by
  rw [exec]
  rfl

theorem exec_guarded (condition : Condition) (body : Program) (machine : Machine) :
    exec board limits (.loop (.guarded condition) body) machine =
      (machine.tick limits).andThen
        (repeatUntil board limits condition (watch board limits condition body) limits.passes) := by
  rw [exec]

theorem matchedBy_repeatPass {pass pass' : Machine → Progress}
    (h : ∀ a b, a.Richer limits b → (pass a).MatchedBy limits (pass' b)) (count : Nat)
    {a b : Machine} (start : a.Richer limits b) :
    (repeatPass pass count a).MatchedBy limits (repeatPass pass' count b) := by
  induction count generalizing a b with
  | zero => exact .done start
  | succ count ih =>
      apply (h a b start).andThen
      intro a b richer
      exact ih richer

theorem matchedBy_repeatUntil {condition : Condition} {pass pass' : Machine → Pass}
    (h : ∀ a b, a.Richer limits b → (pass a).MatchedBy limits (pass' b)) (left : Nat)
    {a b : Machine} (start : a.Richer limits b) :
    (repeatUntil board limits condition pass left a).MatchedBy limits
      (repeatUntil board limits condition pass' left b) := by
  have same : b.walker.sees board condition = a.walker.sees board condition := start.sees condition
  induction left generalizing a b with
  | zero =>
      cases seen : a.walker.sees board condition with
      | true =>
          rw [repeatUntil_of_sees seen, repeatUntil_of_sees (same.trans seen)]
          exact .done (start.emit _)
      | false =>
          rw [repeatUntil_zero seen, repeatUntil_zero (same.trans seen), stop, stop, start.walker]
          exact .stopped start.walker
  | succ left ih =>
      cases seen : a.walker.sees board condition with
      | true =>
          rw [repeatUntil_of_sees seen, repeatUntil_of_sees (same.trans seen)]
          exact .done (start.emit _)
      | false =>
          rw [repeatUntil_succ seen, repeatUntil_succ (same.trans seen)]
          apply (matchedBy_tick start).andThen
          intro a b richer
          apply (h a b richer).resolve
          · intro a b again
            exact ih again (again.sees condition)
          · intro a b last
            exact .done (last.emit _)

mutual

theorem matchedBy_exec (command : Command) {a b : Machine} (start : a.Richer limits b) :
    (exec board limits command a).MatchedBy limits (exec board limits command b) := by
  match command with
  | .act action =>
      apply (matchedBy_tick start).andThen
      intro a b richer
      exact matchedBy_act richer action
  | .loop (.counted times) body =>
      rw [exec_counted, exec_counted]
      apply (matchedBy_tick start).andThen
      intro a b richer
      refine matchedBy_repeatPass ?_ times.toNat richer
      intro a b pass
      apply (matchedBy_tick pass).andThen
      intro a b inside
      exact matchedBy_execBlock body inside
  | .loop (.guarded condition) body =>
      rw [exec_guarded, exec_guarded]
      apply (matchedBy_tick start).andThen
      intro a b richer
      refine matchedBy_repeatUntil ?_ limits.passes richer
      intro a b pass
      exact matchedBy_watch condition body pass

theorem matchedBy_execBlock (block : List Command) {a b : Machine} (start : a.Richer limits b) :
    (execBlock board limits block a).MatchedBy limits (execBlock board limits block b) := by
  match block with
  | [] => exact .done start
  | command :: rest =>
      rw [execBlock, execBlock]
      apply (matchedBy_exec command start).andThen
      intro a b richer
      exact matchedBy_execBlock rest richer

theorem matchedBy_watch (condition : Condition) (block : List Command) {a b : Machine}
    (start : a.Richer limits b) :
    (watch board limits condition block a).MatchedBy limits
      (watch board limits condition block b) := by
  match block with
  | [] => exact .through start
  | command :: rest =>
      rw [watch_cons, watch_cons]
      apply (matchedBy_exec command start).intoPass
      intro a b richer
      rw [richer.sees condition]
      split
      · exact .satisfied richer
      · exact matchedBy_watch condition rest richer

end

end Machine
end Boardwalk
