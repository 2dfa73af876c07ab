import Boardwalk.Proofs.History

/-!
# Limits only cut runs short

The same program is run from the same walker within two pairs of limits, one inside
the other. As long as neither limit of the narrower pair is met both runs do the same,
and where one is met the other run goes on from there. This rests on the steps never
getting past their limit, because the limit is noticed only at equality.
-/
namespace Boardwalk

def Cause.isLimit : Cause → Bool
  | .offBoard _ | .wall _ => false
  | .passLimit _ _ | .stepLimit _ => true

/-- Limits that allow no more than others do. -/
structure Limits.Within (limits wider : Limits) : Prop where
  passes : limits.passes ≤ wider.passes
  steps : limits.steps ≤ wider.steps

namespace Machine

/-- A fault of the narrower limits at a machine, and a last machine that the wider limits let the
run get to from there. -/
inductive Cut (board : Board) (limits wider : Limits) : Fault → Machine → Machine → Prop
  | steps {machine last : Machine} : limits.steps < last.steps → Reaches board wider machine last →
      Cut board limits wider ⟨.stepLimit limits.steps, machine.walker.toStance⟩ machine last
  | passes {machine last : Machine} {condition : Condition} : limits.passes < wider.passes →
      Reaches board wider machine last →
      Cut board limits wider ⟨.passLimit condition limits.passes, machine.walker.toStance⟩ machine
        last

end Machine

/-- A stretch within narrower limits is the one within wider limits, or was cut short. -/
inductive Progress.Shortens (board : Board) (limits wider : Limits) : Progress → Progress → Prop
  | same (progress : Progress) : Shortens board limits wider progress progress
  | cut {fault : Fault} {machine : Machine} {whole : Progress} :
      Machine.Cut board limits wider fault machine whole.machine →
      Shortens board limits wider (.stopped fault machine) whole

@[inherit_doc Progress.Shortens]
inductive Pass.Shortens (board : Board) (limits wider : Limits) : Pass → Pass → Prop
  | same (pass : Pass) : Shortens board limits wider pass pass
  | cut {fault : Fault} {machine : Machine} {whole : Pass} :
      Machine.Cut board limits wider fault machine whole.machine →
      Shortens board limits wider (.stopped fault machine) whole

namespace Machine

variable {board : Board} {limits wider : Limits}

theorem Step.steps_le {a b : Machine} {actions : List Action}
    (h : Step board limits a actions b) : a.steps ≤ b.steps := by
  cases h with
  | tick ticked =>
      obtain ⟨-, rfl⟩ := tick_eq_done_iff.mp ticked
      exact Nat.le_succ _
  | act ticked acted =>
      obtain ⟨-, rfl⟩ := tick_eq_done_iff.mp ticked
      rw [(perform?_of_act_done acted).2]
      exact Nat.le_succ _
  | leftBetween => exact Nat.le_refl _
  | leftMidPass => exact Nat.le_refl _

theorem Reaches.steps_le {a b : Machine} (h : Reaches board limits a b) : a.steps ≤ b.steps := by
  obtain ⟨actions, stretch⟩ := h
  induction stretch with
  | refl => exact Nat.le_refl _
  | tail stretch step ih => exact Nat.le_trans ih step.steps_le

theorem steps_act (machine : Machine) (action : Action) :
    (machine.act board action).machine.steps = machine.steps := by
  cases acted : machine.act board action with
  | done next => exact (perform?_of_act_done acted).2
  | stopped fault next =>
      rw [machine_of_act_stopped acted]
      rfl

theorem tick_of_full {machine : Machine} (full : machine.steps = limits.steps) :
    machine.tick limits = machine.stop (.stepLimit limits.steps) := by
  rw [tick, if_pos full]

theorem tick_of_room {machine : Machine} (room : machine.steps ≠ limits.steps) :
    machine.tick limits = .done ⟨machine.walker, machine.steps + 1, machine.events⟩ :=
  tick_eq_done_iff.mpr ⟨room, rfl⟩

theorem Reaches.steps_le_limit {a b : Machine} (h : Reaches board limits a b)
    (start : a.steps ≤ limits.steps) : b.steps ≤ limits.steps := by
  obtain ⟨actions, stretch⟩ := h
  exact (stretch.steps_bounds start).2

theorem Reaches.steps_le_of_done {machine next : Machine} {progress : Progress}
    (h : Reaches board limits machine progress.machine) (start : machine.steps ≤ limits.steps)
    (done : progress = .done next) : next.steps ≤ limits.steps := by
  subst done
  exact h.steps_le_limit start

theorem Cut.reaches {fault : Fault} {machine middle last : Machine}
    (h : Cut board limits wider fault machine middle) (more : Reaches board wider middle last) :
    Cut board limits wider fault machine last := by
  cases h with
  | steps fewer reached =>
      exact .steps (Nat.lt_of_lt_of_le fewer more.steps_le) (reached.trans more)
  | passes fewer reached => exact .passes fewer (reached.trans more)

theorem Cut.isLimit {fault : Fault} {machine last : Machine}
    (h : Cut board limits wider fault machine last) : fault.cause.isLimit = true := by
  cases h <;> rfl

theorem Cut.continues {fault : Fault} {machine last : Machine}
    (h : Cut board limits wider fault machine last) :
    machine.walker.Continues last.walker := by
  cases h with
  | steps _ reached | passes _ reached => exact reached.changes.continues

end Machine

namespace Progress

theorem eq_done_of_fault?_eq_none {progress : Progress} (h : progress.fault? = none) :
    progress = .done progress.machine := by
  cases progress with
  | done machine => rfl
  | stopped fault machine => cases h

theorem eq_stopped_of_fault? {progress : Progress} {fault : Fault}
    (h : progress.fault? = some fault) : progress = .stopped fault progress.machine := by
  cases progress with
  | done machine => cases h
  | stopped other machine =>
      cases h
      rfl

variable {board : Board} {limits wider : Limits}

theorem Shortens.andThen {a b : Progress} {f g : Machine → Progress}
    (h : a.Shortens board limits wider b)
    (next : ∀ machine, a = .done machine → (f machine).Shortens board limits wider (g machine))
    (goes : ∀ machine, Machine.Reaches board wider machine (g machine).machine) :
    (a.andThen f).Shortens board limits wider (b.andThen g) := by
  cases h with
  | cut short => exact .cut (short.reaches ((Machine.Reaches.refl _).andThen goes))
  | same =>
      cases a with
      | done machine => exact next machine rfl
      | stopped fault machine => exact .same _

theorem Shortens.intoPass {a b : Progress} {f g : Machine → Pass}
    (h : a.Shortens board limits wider b)
    (next : ∀ machine, a = .done machine → (f machine).Shortens board limits wider (g machine))
    (goes : ∀ machine, Machine.Reaches board wider machine (g machine).machine) :
    (a.intoPass f).Shortens board limits wider (b.intoPass g) := by
  cases h with
  | cut short => exact .cut (short.reaches ((Machine.Reaches.refl _).intoPass goes))
  | same =>
      cases a with
      | done machine => exact next machine rfl
      | stopped fault machine => exact .same _

end Progress

namespace Pass

variable {board : Board} {limits wider : Limits}

theorem Shortens.resolve {a b : Pass} {f g leave : Machine → Progress}
    (h : a.Shortens board limits wider b)
    (next : ∀ machine, a = .through machine → (f machine).Shortens board limits wider (g machine))
    (goes : ∀ machine, Machine.Reaches board wider machine (g machine).machine)
    (left : ∀ machine, Machine.Reaches board wider machine (leave machine).machine) :
    (a.resolve f leave).Shortens board limits wider (b.resolve g leave) := by
  cases h with
  | cut short => exact .cut (short.reaches ((Machine.Reaches.refl _).resolve goes left))
  | same =>
      cases a with
      | through machine => exact next machine rfl
      | satisfied machine => exact .same _
      | stopped fault machine => exact .same _

end Pass

namespace Machine

variable {board : Board} {limits wider : Limits}

/-- A step counts against both limits at once, unless it is the first that the narrower one
refuses. -/
theorem shortens_tick_andThen (order : limits.Within wider) {f g : Machine → Progress}
    {machine : Machine} (start : machine.steps ≤ limits.steps)
    (next : ∀ middle, middle.steps ≤ limits.steps →
      (f middle).Shortens board limits wider (g middle))
    (goes : Reaches board wider machine ((machine.tick wider).andThen g).machine)
    (grows : ∀ middle, middle.steps ≤ (g middle).machine.steps) :
    ((machine.tick limits).andThen f).Shortens board limits wider
      ((machine.tick wider).andThen g) := by
  have room := order.steps
  by_cases full : machine.steps = limits.steps
  · rw [tick_of_full full]
    by_cases same : limits.steps = wider.steps
    · rw [tick_of_full (full.trans same), same]
      exact .same _
    · rw [tick_of_room (full ▸ same)] at goes ⊢
      have counted : machine.steps + 1 ≤ _ :=
        grows ⟨machine.walker, machine.steps + 1, machine.events⟩
      exact .cut (.steps (full ▸ counted) goes)
  · rw [tick_of_room full, tick_of_room (show machine.steps ≠ wider.steps by omega)]
    exact next _ (Nat.lt_of_le_of_ne start full)

theorem shortens_repeatPass {pass passWider : Machine → Progress}
    (h : ∀ machine, machine.steps ≤ limits.steps →
      (pass machine).Shortens board limits wider (passWider machine))
    (stays : ∀ machine, Reaches board limits machine (pass machine).machine)
    (goes : ∀ machine, Reaches board wider machine (passWider machine).machine)
    (count : Nat) {machine : Machine} (start : machine.steps ≤ limits.steps) :
    (repeatPass pass count machine).Shortens board limits wider
      (repeatPass passWider count machine) := by
  induction count generalizing machine with
  | zero => exact .same _
  | succ count ih =>
      refine (h machine start).andThen ?_ (.repeatPass goes count)
      intro middle done
      exact ih ((stays machine).steps_le_of_done start done)

/-- Both loops have made the same number of passes when they are left. -/
theorem shortens_of_sees {condition : Condition} {pass passWider : Machine → Pass}
    {made left more : Nat} (narrow : limits.passes = made + left)
    (wide : wider.passes = made + more) {machine : Machine}
    (seen : machine.walker.sees board condition = true) :
    (repeatUntil board limits condition pass left machine).Shortens board limits wider
      (repeatUntil board wider condition passWider more machine) := by
  have passes : limits.passes - left = wider.passes - more := by omega
  rw [repeatUntil_of_sees seen, repeatUntil_of_sees seen, passes]
  exact .same _

/-- Both loops have made the same number of passes, and the wider limits leave at least as many. -/
theorem shortens_repeatUntil (order : limits.Within wider) {condition : Condition}
    {pass passWider : Machine → Pass}
    (h : ∀ machine, machine.steps ≤ limits.steps →
      (pass machine).Shortens board limits wider (passWider machine))
    (stays : ∀ machine, Reaches board limits machine (pass machine).machine)
    (goes : ∀ machine, Reaches board wider machine (passWider machine).machine)
    {made left more : Nat} (narrow : limits.passes = made + left)
    (wide : wider.passes = made + more) {machine : Machine}
    (start : machine.steps ≤ limits.steps) :
    (repeatUntil board limits condition pass left machine).Shortens board limits wider
      (repeatUntil board wider condition passWider more machine) := by
  have fewer : left ≤ more := by
    have := order.passes
    omega
  induction left generalizing made more machine with
  | zero =>
      cases seen : machine.walker.sees board condition with
      | true => exact shortens_of_sees narrow wide seen
      | false =>
          rw [repeatUntil_zero seen]
          cases more with
          | zero =>
              rw [repeatUntil_zero seen, narrow, wide]
              exact .same _
          | succ more => exact .cut (.passes (by omega) (.repeatUntil goes _ machine))
  | succ left ih =>
      cases seen : machine.walker.sees board condition with
      | true => exact shortens_of_sees narrow wide seen
      | false =>
          obtain ⟨more, rfl⟩ : ∃ rest, more = rest + 1 := ⟨more - 1, by omega⟩
          have passes : limits.passes - left = wider.passes - more := by omega
          rw [repeatUntil_succ seen, repeatUntil_succ seen, passes]
          have again (next : Machine) : Reaches board wider next
              (repeatUntil board wider condition passWider more next).machine :=
            .repeatUntil goes more next
          have leave (last : Machine) : Reaches board wider last (Progress.done
              (last.emit (.leftMidPass condition (wider.passes - more)))).machine :=
            Step.leftMidPass.reaches
          have goesOn (middle : Machine) := (goes middle).resolve again leave
          refine shortens_tick_andThen order start ?_ ((Reaches.tick machine).andThen goesOn)
            fun middle => (goesOn middle).steps_le
          intro middle inside
          refine (h middle inside).resolve ?_ again leave
          intro next through
          have reached := stays middle
          rw [through] at reached
          have bound : next.steps ≤ limits.steps := reached.steps_le_limit inside
          have one : limits.passes = (made + 1) + left ∧ wider.passes = (made + 1) + more := by
            omega
          exact ih one.1 one.2 bound (Nat.le_of_succ_le_succ fewer)

mutual

theorem shortens_exec (order : limits.Within wider) (command : Command) {machine : Machine}
    (start : machine.steps ≤ limits.steps) :
    (exec board limits command machine).Shortens board limits wider
      (exec board wider command machine) := by
  have whole := @reaches_exec board wider command machine
  match command with
  | .act action =>
      refine shortens_tick_andThen order start (fun middle _ => .same _) whole ?_
      intro middle
      exact (steps_act middle action).ge
  | .loop (.counted times) body =>
      have stays (next : Machine) : Reaches board limits next
          ((next.tick limits).andThen fun next => execBlock board limits body next).machine :=
        (Reaches.tick next).andThen (reaches_execBlock body)
      have goes (next : Machine) : Reaches board wider next ((next.tick wider).andThen fun next =>
          execBlock board wider body next).machine :=
        (Reaches.tick next).andThen (reaches_execBlock body)
      refine shortens_tick_andThen order start ?_ whole ?_
      · intro middle inside
        refine shortens_repeatPass ?_ stays goes times.toNat inside
        intro next bound
        refine shortens_tick_andThen order bound ?_ (goes next) ?_
        · intro last within
          exact shortens_execBlock order body within
        · intro last
          exact (reaches_execBlock body last).steps_le
      · intro middle
        exact (Reaches.repeatPass goes times.toNat middle).steps_le
  | .loop (.guarded condition) body =>
      have goes := @reaches_watch board wider condition body
      refine shortens_tick_andThen order start ?_ whole ?_
      · intro middle inside
        refine shortens_repeatUntil order ?_ (reaches_watch condition body) goes
          (Nat.zero_add _).symm (Nat.zero_add _).symm inside
        intro next bound
        exact shortens_watch order condition body bound
      · intro middle
        exact (Reaches.repeatUntil goes wider.passes middle).steps_le

theorem shortens_execBlock (order : limits.Within wider) (block : List Command) {machine : Machine}
    (start : machine.steps ≤ limits.steps) :
    (execBlock board limits block machine).Shortens board limits wider
      (execBlock board wider block machine) := by
  match block with
  | [] => exact .same _
  | command :: rest =>
      rw [execBlock, execBlock]
      refine (shortens_exec order command start).andThen ?_ (reaches_execBlock rest)
      intro middle done
      exact shortens_execBlock order rest
        ((reaches_exec command machine).steps_le_of_done start done)

theorem shortens_watch (order : limits.Within wider) (condition : Condition) (block : List Command)
    {machine : Machine} (start : machine.steps ≤ limits.steps) :
    (watch board limits condition block machine).Shortens board limits wider
      (watch board wider condition block machine) := by
  match block with
  | [] => exact .same _
  | command :: rest =>
      rw [watch_cons, watch_cons]
      refine (shortens_exec order command start).intoPass ?_ ?_
      · intro middle done
        split
        · exact .same _
        · exact shortens_watch order condition rest
            ((reaches_exec command machine).steps_le_of_done start done)
      · intro middle
        split
        · exact .refl middle
        · exact reaches_watch condition rest middle

end

end Machine

namespace Program

variable {board : Board} {limits wider : Limits} {program : Program} {walker : Walker}

theorem steps_run (board : Board) (limits : Limits) (program : Program) (walker : Walker) :
    (program.run board limits walker).machine.steps =
      (Machine.execBlock board limits program (program.starting walker)).machine.steps := by
  rw [run_eq]
  cases Machine.execBlock board limits program (program.starting walker) <;> rfl

theorem run_within (order : limits.Within wider) (program : Program) (walker : Walker) :
    program.run board wider walker = program.run board limits walker ∨
      ∃ fault machine, program.run board limits walker = .stopped fault machine ∧
        Machine.Cut board limits wider fault machine
          (Machine.execBlock board wider program (program.starting walker)).machine := by
  have shortens := @Machine.shortens_execBlock board _ _ order program (program.starting walker)
    (Nat.zero_le limits.steps)
  rw [run_eq, run_eq]
  generalize Machine.execBlock board limits program (program.starting walker) = narrow at shortens
  generalize Machine.execBlock board wider program (program.starting walker) = wide at shortens
  cases shortens with
  | same => exact .inl rfl
  | cut short => exact .inr ⟨_, _, rfl, short⟩

/-- The steps of a run keep within their limit, and every entry of the record has cost one. -/
theorem run_steps_bounds (board : Board) (limits : Limits) (program : Program) (walker : Walker) :
    let machine := (program.run board limits walker).machine
    machine.steps ≤ limits.steps ∧ ∃ entries : List String,
      machine.walker.moves.toList = walker.moves.toList ++ entries ∧
        entries.length ≤ machine.steps := by
  intro machine
  have reached : Machine.Reaches board limits (program.starting walker) _ :=
    Machine.reaches_execBlock program (program.starting walker)
  obtain ⟨actions, stretch⟩ := reached
  have bounds := stretch.steps_bounds (Nat.zero_le limits.steps)
  have steps : machine.steps = _ := steps_run board limits program walker
  have last : machine.walker = _ := walker_run board limits program walker
  rw [steps, last]
  refine ⟨bounds.2, actions.map Action.text, ?_, ?_⟩
  · exact Walker.moves_of_performAll? stretch.performAll?
  · rw [List.length_map]
    exact Nat.le_trans (Nat.le_add_left _ _) bounds.1

/-- A run that went through needs as many steps as it took, and no more. -/
theorem run_of_budget {machine : Machine} (done : program.run board limits walker = .done machine)
    (budget : Nat) :
    (machine.steps ≤ budget →
      program.run board ⟨limits.passes, budget⟩ walker = .done machine) ∧
    (budget < machine.steps → ∃ stance stopped,
      program.run board ⟨limits.passes, budget⟩ walker =
        .stopped ⟨.stepLimit budget, stance⟩ stopped) := by
  -- Limits that hold both: the run within them is the given one.
  let both : Limits := ⟨limits.passes, max limits.steps budget⟩
  have whole : program.run board both walker = .done machine := by
    have inside : limits.Within both := ⟨Nat.le_refl _, Nat.le_max_left _ _⟩
    rcases run_within inside program walker with same | ⟨fault, last, stopped, -⟩
    · exact same.trans done
    · rw [done] at stopped
      cases stopped
  have steps : (Machine.execBlock board both program (program.starting walker)).machine.steps =
      machine.steps := by
    rw [← steps_run, whole]
    rfl
  have inside : Limits.Within ⟨limits.passes, budget⟩ both := ⟨Nat.le_refl _, Nat.le_max_right _ _⟩
  rcases run_within inside program walker with same | ⟨fault, last, stopped, short⟩
  · have through := same.symm.trans whole
    have bound := (run_steps_bounds board ⟨limits.passes, budget⟩ program walker).1
    rw [through] at bound
    exact ⟨fun _ => through, fun fewer => absurd bound (Nat.not_le_of_lt fewer)⟩
  · cases short with
    | passes fewer reached => exact absurd fewer (Nat.lt_irrefl _)
    | steps fewer reached =>
        rw [steps] at fewer
        exact ⟨fun enough => absurd enough (Nat.not_le_of_lt fewer), fun _ => ⟨_, _, stopped⟩⟩

/-- Wider limits leave a run as it is unless a limit stopped it, and then let it go on. No run takes
more steps than its limit or adds more entries to the record than steps, and a run that goes
through does so within exactly those step limits that are no less than the steps it takes. -/
theorem run_limits_only_cut (board : Board) (program : Program) (walker : Walker)
    (limits wider : Limits) (order : limits.Within wider) :
    let narrow := program.run board limits walker
    let wide := program.run board wider walker
    ((∀ fault ∈ narrow.fault?, fault.cause.isLimit = false) → wide = narrow) ∧
    ((∃ fault ∈ narrow.fault?, fault.cause.isLimit = true) →
      narrow.machine.walker.moves.toList <+: wide.machine.walker.moves.toList ∧
        narrow.machine.walker.visited.toList <+: wide.machine.walker.visited.toList) ∧
    narrow.machine.steps ≤ limits.steps ∧
    (∃ entries, narrow.machine.walker.moves.toList = walker.moves.toList ++ entries ∧
      entries.length ≤ narrow.machine.steps) ∧
    ∀ machine, narrow = .done machine → ∀ budget,
      (machine.steps ≤ budget →
        program.run board ⟨limits.passes, budget⟩ walker = .done machine) ∧
      (budget < machine.steps → ∃ stance stopped,
        program.run board ⟨limits.passes, budget⟩ walker =
          .stopped ⟨.stepLimit budget, stance⟩ stopped) := by
  intro narrow wide
  have bounds := run_steps_bounds board limits program walker
  refine ⟨?_, ?_, bounds.1, bounds.2, fun machine done => run_of_budget done⟩
  · intro free
    rcases run_within order program walker with same | ⟨fault, last, stopped, short⟩
    · exact same
    · have met : fault ∈ narrow.fault? := by
        rw [show narrow = .stopped fault last from stopped]
        rfl
      exact absurd (free fault met) (by rw [short.isLimit]; decide)
  · rintro -
    rcases run_within order program walker with same | ⟨fault, last, stopped, short⟩
    · rw [show wide = narrow from same]
      exact ⟨List.prefix_refl _, List.prefix_refl _⟩
    · have continues := short.continues
      rw [← walker_run] at continues
      rw [show narrow = .stopped fault last from stopped]
      exact ⟨continues.moves, continues.visited⟩

/-- One pass along a row is not enough to see its end, two are; the second run repeats the first and
takes seven steps, so with six it is stopped. -/
theorem run_along_row_limits :
    let row : Program :=
      [.loop (.guarded .gridEdge) [.act (.move 1), .act (.turn .right), .act (.turn .left)]]
    (row.run (.blank 3) ⟨1, 20⟩ .fresh).fault? =
        some ⟨.passLimit .gridEdge 1, ⟨⟨1, 0⟩, .east⟩⟩ ∧
      (row.run (.blank 3) ⟨1, 20⟩ .fresh).machine.walker.visited.toList <+:
        (row.run (.blank 3) ⟨2, 20⟩ .fresh).machine.walker.visited.toList ∧
      (row.run (.blank 3) ⟨2, 20⟩ .fresh).fault? = none ∧
      (row.run (.blank 3) ⟨2, 20⟩ .fresh).machine.steps = 7 ∧
      ∃ stance stopped, row.run (.blank 3) ⟨2, 6⟩ .fresh =
        .stopped ⟨.stepLimit 6, stance⟩ stopped := by
  intro row
  have order : Limits.Within ⟨1, 20⟩ ⟨2, 20⟩ := ⟨by decide, by decide⟩
  have same : Limits.Within ⟨2, 20⟩ ⟨2, 20⟩ := ⟨by decide, by decide⟩
  have fault : (row.run (.blank 3) ⟨1, 20⟩ .fresh).fault? =
      some ⟨.passLimit .gridEdge 1, ⟨⟨1, 0⟩, .east⟩⟩ := by decide +kernel
  have through : (row.run (.blank 3) ⟨2, 20⟩ .fresh).fault? = none := by decide +kernel
  have steps : (row.run (.blank 3) ⟨2, 20⟩ .fresh).machine.steps = 7 := by decide +kernel
  have continued := (run_limits_only_cut (.blank 3) row .fresh ⟨1, 20⟩ ⟨2, 20⟩ order).2.1
    ⟨_, Option.mem_def.mpr fault, rfl⟩
  have budgets := (run_limits_only_cut (.blank 3) row .fresh ⟨2, 20⟩ ⟨2, 20⟩ same).2.2.2.2
  have refused := (budgets _ (Progress.eq_done_of_fault?_eq_none through) 6).2
  exact ⟨fault, continued.2, through, steps, refused (steps ▸ by decide)⟩

end Program
end Boardwalk
