import Boardwalk.Proofs.SafeWalking
import Boardwalk.Proofs.Unrolling
import Mathlib.Algebra.Group.Nat.Defs
import Mathlib.Data.Nat.Find

/-!
# Walking up to a wall

The shortest guarded loop goes one step at a time until it sees a wall. How far it gets
is settled by three numbers: the distance to the first wall ahead, the passes that a
loop may make and the steps that a run may take, of which every pass takes two. On a
board whose columns and rows can be counted by coordinates, a walker has a wall ahead
wherever it stands, if only beyond the edge.
-/
namespace Boardwalk

theorem clamp_add {low high x a b : Int} (inside : low ≤ x ∧ x ≤ high)
    (sameWay : 0 ≤ a ∧ 0 ≤ b ∨ a ≤ 0 ∧ b ≤ 0) :
    max low (min (max low (min (x + a) high) + b) high) = max low (min (x + (a + b)) high) := by
  omega

theorem toInt_boundedMul_of_unit {delta amount : Int64}
    (unit : delta.toInt = -1 ∨ delta.toInt = 0 ∨ delta.toInt = 1) (forward : 0 ≤ amount.toInt) :
    (boundedMul delta amount).toInt = delta.toInt * amount.toInt := by
  have range : amount.toInt < 2 ^ 63 := Int64.toInt_lt amount
  rw [toInt_boundedMul, Int64.toInt_minValue, Int64.toInt_maxValue]
  rcases unit with back | still | on
  · rw [back]
    omega
  · rw [still]
    omega
  · rw [on]
    omega

/-- A sum that stops at an end of the range comes to the same in one part and in two, if both parts
go the same way. -/
theorem boundedAdd_succ {delta : Int64}
    (unit : delta.toInt = -1 ∨ delta.toInt = 0 ∨ delta.toInt = 1) (x : Int64) {count : Nat}
    (range : count + 1 < 2 ^ 63) :
    boundedAdd (boundedAdd x (boundedMul delta 1)) (boundedMul delta (.ofNat count)) =
      boundedAdd x (boundedMul delta (.ofNat (count + 1))) := by
  have one : (1 : Int64).toInt = 1 := by decide
  have some : (Int64.ofNat count).toInt = count := Int64.toInt_ofNat_of_lt (by omega)
  have all : (Int64.ofNat (count + 1)).toInt = count + 1 := Int64.toInt_ofNat_of_lt range
  have inside : Int64.minValue.toInt ≤ x.toInt ∧ x.toInt ≤ Int64.maxValue.toInt :=
    ⟨Int64.le_toInt x, Int.le_sub_one_of_lt (Int64.toInt_lt x)⟩
  have sameWay : 0 ≤ delta.toInt * 1 ∧ 0 ≤ delta.toInt * count ∨
      delta.toInt * 1 ≤ 0 ∧ delta.toInt * count ≤ 0 := by
    rcases Int.le_total 0 delta.toInt with on | back
    · exact .inl ⟨by omega, Int.mul_nonneg on (Int.natCast_nonneg count)⟩
    · exact .inr ⟨by omega, Int.mul_nonpos_of_nonpos_of_nonneg back (Int.natCast_nonneg count)⟩
  apply Int64.toInt_inj.mp
  rw [toInt_boundedAdd, toInt_boundedAdd, toInt_boundedAdd,
    toInt_boundedMul_of_unit unit (by omega), toInt_boundedMul_of_unit unit (by omega),
    toInt_boundedMul_of_unit unit (by omega), one, some, all, clamp_add inside sameWay,
    Int.mul_add, Int.add_comm (delta.toInt * 1)]

theorem Heading.unit_delta (heading : Heading) :
    (heading.delta.x.toInt = -1 ∨ heading.delta.x.toInt = 0 ∨ heading.delta.x.toInt = 1) ∧
      (heading.delta.y.toInt = -1 ∨ heading.delta.y.toInt = 0 ∨ heading.delta.y.toInt = 1) := by
  cases heading <;> decide

theorem Point.along_succ (point : Point) (heading : Heading) {count : Nat}
    (range : count + 1 < 2 ^ 63) :
    (point.along heading 1).along heading (.ofNat count) =
      point.along heading (.ofNat (count + 1)) := by
  rw [Point.along, Point.along, Point.along, boundedAdd_succ heading.unit_delta.1 _ range,
    boundedAdd_succ heading.unit_delta.2 _ range]

theorem Point.along_zero (point : Point) (heading : Heading) : point.along heading 0 = point := by
  rw [Point.along, boundedMul_zero_right, boundedMul_zero_right, boundedAdd_zero, boundedAdd_zero]

namespace Walker

variable {board : Board} {walker next : Walker} {count distance : Nat}

def stride (walker : Walker) : Walker :=
  (walker.goTo (walker.ahead 1)).record (Action.move 1).text

/-- What a walker comes to that goes straight on, one step at a time. -/
structure Strode (walker : Walker) (count : Nat) (next : Walker) : Prop where
  position : next.position = walker.ahead (.ofNat count)
  heading : next.heading = walker.heading
  moves : next.moves.toList = walker.moves.toList ++ List.replicate count "Move 1"
  visited : next.visited.toList = walker.visited.toList ++
    (List.range count).map fun j => walker.ahead (.ofNat (j + 1))

/-- How many steps a walker can go before the next one leads into a wall or off the board. Numbers
of steps have 64 bits. -/
structure Room (board : Board) (walker : Walker) (distance : Nat) : Prop where
  range : distance + 1 < 2 ^ 63
  free : ∀ j < distance, board.isWall (walker.ahead (.ofNat (j + 1))) = false
  wall : board.isWall (walker.ahead (.ofNat (distance + 1))) = true

theorem ahead_stride (walker : Walker) (range : count + 1 < 2 ^ 63) :
    walker.stride.ahead (.ofNat count) = walker.ahead (.ofNat (count + 1)) :=
  walker.position.along_succ walker.heading range

theorem strode_zero (walker : Walker) : walker.Strode 0 walker where
  position := (walker.position.along_zero walker.heading).symm
  heading := rfl
  moves := (List.append_nil _).symm
  visited := (List.append_nil _).symm

theorem Strode.succ (h : walker.stride.Strode count next) (range : count + 1 < 2 ^ 63) :
    walker.Strode (count + 1) next where
  position := by rw [h.position, ahead_stride walker range]
  heading := h.heading
  moves := by
    have text : (Action.move 1).text = "Move 1" := by decide
    rw [h.moves, stride, moves_record, moves_goTo, Array.toList_push, text, List.replicate_succ,
      List.append_assoc, List.singleton_append]
  visited := by
    have later : ∀ j ∈ List.range count, walker.stride.ahead (.ofNat (j + 1)) =
        walker.ahead (.ofNat (j + 1 + 1)) := by
      intro j member
      have inside : j < count := List.mem_range.mp member
      exact ahead_stride walker (by omega)
    rw [h.visited, List.map_congr_left later, stride, visited_record, visited_goTo,
      Array.toList_push, List.range_succ_eq_map, List.map_cons, List.map_map, List.append_assoc,
      List.singleton_append]
    rfl

theorem Room.sees (room : walker.Room board 0) : walker.sees board .wallAhead = true :=
  room.wall

theorem Room.not_sees (room : walker.Room board (distance + 1)) :
    walker.sees board .wallAhead = false :=
  room.free 0 (Nat.succ_pos distance)

theorem Room.eq_zero_of_sees (room : walker.Room board distance)
    (seen : walker.sees board .wallAhead = true) : distance = 0 := by
  cases distance with
  | zero => rfl
  | succ distance =>
      rw [room.not_sees] at seen
      cases seen

theorem Room.stride (room : walker.Room board (distance + 1)) :
    walker.stride.Room board distance where
  range := Nat.lt_of_succ_lt room.range
  free := by
    intro j inside
    have range := room.range
    rw [ahead_stride walker (by omega)]
    exact room.free (j + 1) (Nat.succ_lt_succ inside)
  wall := by
    rw [ahead_stride walker room.range]
    exact room.wall

theorem Sound.position_eq_or (sound : Sound board walker) :
    walker.position = .origin ∨ board.isOutside walker.position = false := by
  have first := sound.first
  have last := sound.last
  have free := sound.free
  cases visited : walker.visited.toList with
  | nil =>
      rw [visited] at first
      cases first
  | cons start later =>
      rw [visited] at first last free
      cases later with
      | nil => exact .inl (Option.some.inj (last.symm.trans first))
      | cons second later =>
          rw [List.getLast?_cons_cons] at last
          exact .inr (free walker.position (List.mem_of_getLast? last)).1

end Walker

/-- A coordinate that is moved as far as the board is wide is no longer on it. -/
theorem outside_of_boundedAdd {delta x : Int64} {count size : Nat}
    (unit : delta.toInt = -1 ∨ delta.toInt = 1) (range : count < 2 ^ 63) (far : size ≤ count)
    (low : 0 ≤ x.toInt) (high : x.toInt < count) :
    (boundedAdd x (boundedMul delta (.ofNat count))).toInt < 0 ∨
      size ≤ (boundedAdd x (boundedMul delta (.ofNat count))).toInt := by
  have steps : (Int64.ofNat count).toInt = count := Int64.toInt_ofNat_of_lt range
  have product : (boundedMul delta (.ofNat count)).toInt = delta.toInt * count := by
    rw [toInt_boundedMul_of_unit (by omega) (by omega), steps]
  rw [toInt_boundedAdd, product, Int64.toInt_minValue, Int64.toInt_maxValue]
  rcases unit with back | on
  · rw [back]
    omega
  · rw [on]
    omega

theorem Heading.delta_ne_zero (heading : Heading) :
    (heading.delta.x.toInt = -1 ∨ heading.delta.x.toInt = 1) ∨
      heading.delta.y.toInt = -1 ∨ heading.delta.y.toInt = 1 := by
  cases heading <;> decide

theorem Board.isOutside_along {board : Board} {point : Point} {count : Nat}
    (range : count < 2 ^ 63) (far : board.size ≤ count)
    (column : 0 ≤ point.x.toInt ∧ point.x.toInt < count)
    (row : 0 ≤ point.y.toInt ∧ point.y.toInt < count) (heading : Heading) :
    board.isOutside (point.along heading (.ofNat count)) = true := by
  by_contra inside
  obtain ⟨left, right, top, bottom⟩ :=
    isOutside_eq_false_iff.mp (Bool.eq_false_iff.mpr inside)
  rcases heading.delta_ne_zero with unit | unit
  · rcases outside_of_boundedAdd unit range far column.1 column.2 with low | high
    · exact absurd left (Int.not_le.mpr low)
    · exact absurd right (Int.not_lt.mpr high)
  · rcases outside_of_boundedAdd unit range far row.1 row.2 with low | high
    · exact absurd top (Int.not_le.mpr low)
    · exact absurd bottom (Int.not_lt.mpr high)

/-- Wherever a walker has come to, there is a wall ahead of it or an edge. -/
theorem Walker.Sound.exists_room {board : Board} {walker : Walker} (sound : Sound board walker)
    (size : board.size < 2 ^ 63) : ∃ distance, walker.Room board distance := by
  -- As many steps as there are columns are enough, and one on a board that has none.
  obtain ⟨far, count⟩ : ∃ far, far + 1 = max board.size 1 := ⟨board.size - 1, by omega⟩
  have start : (0 ≤ walker.position.x.toInt ∧ walker.position.x.toInt < (far + 1 : Nat)) ∧
      0 ≤ walker.position.y.toInt ∧ walker.position.y.toInt < (far + 1 : Nat) := by
    rcases sound.position_eq_or with corner | inside
    · have zero : Point.origin.x.toInt = 0 ∧ Point.origin.y.toInt = 0 := by decide
      rw [corner]
      omega
    · rw [Board.isOutside_eq_false_iff] at inside
      omega
  have wall : board.isWall (walker.ahead (.ofNat (far + 1))) = true :=
    Board.isWall_of_isOutside (Board.isOutside_along (by omega) (by omega) start.1 start.2 _)
  have blocked : ∃ distance, board.isWall (walker.ahead (.ofNat (distance + 1))) = true :=
    ⟨far, wall⟩
  have least : Nat.find blocked ≤ far := Nat.find_min' blocked wall
  refine ⟨Nat.find blocked, by omega, ?_, Nat.find_spec blocked⟩
  intro j before
  exact Bool.eq_false_iff.mpr (Nat.find_min blocked before)

namespace Machine

variable {board : Board} {limits : Limits} {machine : Machine} {distance left : Nat}

def wallWalk (board : Board) (limits : Limits) : Nat → Machine → Progress :=
  repeatUntil board limits .wallAhead (watch board limits .wallAhead [.act (.move 1)])

/-- How a walk ends that has its first wall at a distance and a number of passes left. -/
inductive WalkEnds (limits : Limits) (start : Machine) (distance left : Nat) : Progress → Prop
  | arrived {next : Machine} : distance ≤ left → start.steps + 2 * distance ≤ limits.steps →
      start.walker.Strode distance next.walker → WalkEnds limits start distance left (.done next)
  | gaveUp {next : Machine} : left < distance → start.steps + 2 * left ≤ limits.steps →
      start.walker.Strode left next.walker →
      WalkEnds limits start distance left (next.stop (.passLimit .wallAhead limits.passes))
  | ranOut {next : Machine} {made : Nat} : made < min distance left →
      start.steps + 2 * made ≤ limits.steps → limits.steps < start.steps + 2 * (made + 1) →
      start.walker.Strode made next.walker →
      WalkEnds limits start distance left (next.stop (.stepLimit limits.steps))

theorem WalkEnds.succ {start next : Machine} {progress : Progress}
    (h : WalkEnds limits next distance left progress) (walker : next.walker = start.walker.stride)
    (steps : next.steps = start.steps + 2) (range : distance + 1 < 2 ^ 63) :
    WalkEnds limits start (distance + 1) (left + 1) progress := by
  cases h with
  | arrived within enough strode =>
      rw [walker] at strode
      exact .arrived (by omega) (by omega) (strode.succ range)
  | gaveUp short enough strode =>
      rw [walker] at strode
      exact .gaveUp (by omega) (by omega) (strode.succ (by omega))
  | ranOut within enough few strode =>
      rw [walker] at strode
      exact .ranOut (by omega) (by omega) (by omega) (strode.succ (by omega))

theorem watch_of_full {action : Action} (full : machine.steps = limits.steps) :
    watch board limits .wallAhead [.act action] machine =
      .stopped ⟨.stepLimit limits.steps, machine.walker.toStance⟩ machine := by
  rw [watch_cons, exec, tick_of_full full]
  rfl

theorem watch_of_room (free : machine.walker.sees board .wallAhead = false)
    (room : machine.steps ≠ limits.steps) :
    ∃ next : Machine, next.walker = machine.walker.stride ∧ next.steps = machine.steps + 1 ∧
      watch board limits .wallAhead [.act (.move 1)] machine =
        if next.walker.sees board .wallAhead then .satisfied next else .through next := by
  have clear : machine.walker.blocked? board 1 = none :=
    Walker.blocked?_eq_none_iff.mpr ⟨Board.isOutside_of_isWall free, free⟩
  refine ⟨⟨machine.walker.stride, machine.steps + 1, machine.events.push
    (.moved 1 machine.walker.position (machine.walker.ahead 1))⟩, rfl, rfl, ?_⟩
  rw [watch_cons, exec, tick_of_room room, Progress.andThen_done, act_move]
  dsimp only
  rw [clear, Progress.intoPass, watch]
  rfl

/-- A pass costs a step for itself and one for its move, and either may be refused. -/
theorem walkEnds_pass (room : machine.walker.Room board (distance + 1))
    (within : machine.steps ≤ limits.steps)
    (again : ∀ next : Machine, next.walker.Room board distance → next.steps ≤ limits.steps →
      WalkEnds limits next distance left (wallWalk board limits left next)) :
    WalkEnds limits machine (distance + 1) (left + 1)
      (wallWalk board limits (left + 1) machine) := by
  have free := room.not_sees
  have range := room.range
  rw [wallWalk, repeatUntil_succ free]
  by_cases full : machine.steps = limits.steps
  · rw [tick_of_full full]
    exact .ranOut (by omega) (by omega) (by omega) (Walker.strode_zero _)
  · rw [tick_of_room full, Progress.andThen_done]
    by_cases last : machine.steps + 1 = limits.steps
    · rw [watch_of_full last]
      exact .ranOut (by omega) (by omega) (by omega) (Walker.strode_zero _)
    · obtain ⟨next, walker, steps, passed⟩ := @watch_of_room board limits
        ⟨machine.walker, machine.steps + 1, machine.events⟩ free last
      have later : next.walker.Room board distance := by
        rw [walker]
        exact room.stride
      have counted : next.steps = machine.steps + 2 := steps
      rw [passed]
      refine WalkEnds.succ ?_ walker counted (by omega)
      cases seen : next.walker.sees board .wallAhead with
      | false => exact again next later (by omega)
      | true =>
          obtain rfl := later.eq_zero_of_sees seen
          exact .arrived (Nat.zero_le left) (by omega) (Walker.strode_zero _)

theorem exec_wallWalk (machine : Machine) :
    exec board limits (.loop (.guarded .wallAhead) [.act (.move 1)]) machine =
      (machine.tick limits).andThen (wallWalk board limits limits.passes) :=
  exec_guarded .wallAhead [.act (.move 1)] machine

theorem walkEnds_wallWalk (room : machine.walker.Room board distance)
    (within : machine.steps ≤ limits.steps) (left : Nat) :
    WalkEnds limits machine distance left (wallWalk board limits left machine) := by
  induction distance generalizing machine left with
  | zero =>
      rw [wallWalk, repeatUntil_of_sees room.sees]
      exact .arrived (Nat.zero_le left) within (Walker.strode_zero _)
  | succ distance ih =>
      cases left with
      | zero =>
          rw [wallWalk, repeatUntil_zero room.not_sees]
          exact .gaveUp (Nat.succ_pos distance) within (Walker.strode_zero _)
      | succ left => exact walkEnds_pass room within fun next later bound => ih later bound left

end Machine

namespace Program

variable {board : Board} {limits : Limits} {walker : Walker} {distance : Nat}

def toWall : Program := [.loop (.guarded .wallAhead) [.act (.move 1)]]

theorem run_toWall_cases (room : walker.Room board distance) :
    let run := toWall.run board limits walker
    ∃ count, walker.Strode count run.machine.walker ∧
      ((limits.steps < 1 + 2 * min distance limits.passes ∧ count = (limits.steps - 1) / 2 ∧
          run.fault? = some ⟨.stepLimit limits.steps, run.machine.walker.toStance⟩) ∨
        (1 + 2 * min distance limits.passes ≤ limits.steps ∧ distance ≤ limits.passes ∧
          count = distance ∧ run.fault? = none) ∨
        (1 + 2 * min distance limits.passes ≤ limits.steps ∧ limits.passes < distance ∧
          count = limits.passes ∧ run.fault? =
            some ⟨.passLimit .wallAhead limits.passes, run.machine.walker.toStance⟩)) := by
  intro run
  have outcome : run.outcome = (Machine.exec board limits
      (.loop (.guarded .wallAhead) [.act (.move 1)]) (toWall.starting walker)).outcome := by
    rw [← Machine.execBlock_singleton]
    exact outcome_run toWall walker
  obtain ⟨same, fault⟩ := Prod.mk.inj outcome
  rw [same, fault, Machine.exec_wallWalk]
  by_cases none : limits.steps = 0
  · rw [Machine.tick_of_full none.symm]
    exact ⟨0, walker.strode_zero, .inl ⟨by omega, by omega, rfl⟩⟩
  · obtain ⟨ticked, tick, rfl, one⟩ : ∃ ticked,
        (toWall.starting walker).tick limits = .done ticked ∧
          ticked.walker = walker ∧ ticked.steps = 1 :=
      ⟨_, Machine.tick_of_room (Ne.symm none), rfl, rfl⟩
    have bound : ticked.steps ≤ limits.steps := by omega
    have ends := Machine.walkEnds_wallWalk room bound limits.passes
    rw [tick, Progress.andThen_done]
    generalize Machine.wallWalk board limits limits.passes ticked = progress at ends ⊢
    cases ends with
    | arrived within enough strode =>
        exact ⟨distance, strode, .inr (.inl ⟨by omega, within, rfl, rfl⟩)⟩
    | gaveUp short enough strode =>
        exact ⟨limits.passes, strode, .inr (.inr ⟨by omega, short, rfl, rfl⟩)⟩
    | @ranOut next made within enough few strode =>
        exact ⟨made, strode, .inl ⟨by omega, by omega, rfl⟩⟩

/-- From any walker that operations on a fresh one lead to, the program goes on up to the wall, one
recorded step at a time, unless its loop has made all passes before or the run has taken all steps.
The loop takes one step and each of its passes two. The heading stays as it is. -/
theorem walk_to_wall_is_exact (board : Board) (limits : Limits) (operations : List Operation) :
    let walker := Walker.fresh.after board operations
    let run := toWall.run board limits walker
    (board.size < 2 ^ 63 → ∃ distance, walker.Room board distance) ∧
    ∀ distance, walker.Room board distance →
      (limits.steps < 1 + 2 * min distance limits.passes →
        run.fault? = some ⟨.stepLimit limits.steps, run.machine.walker.toStance⟩ ∧
          walker.Strode ((limits.steps - 1) / 2) run.machine.walker) ∧
      (1 + 2 * min distance limits.passes ≤ limits.steps → distance ≤ limits.passes →
        run.fault? = none ∧ walker.Strode distance run.machine.walker) ∧
      (1 + 2 * min distance limits.passes ≤ limits.steps → limits.passes < distance →
        run.fault? = some ⟨.passLimit .wallAhead limits.passes, run.machine.walker.toStance⟩ ∧
          walker.Strode limits.passes run.machine.walker) ∧
      run.machine.walker.heading = walker.heading := by
  intro walker run
  have sound : walker.Sound board :=
    (Walker.sound_fresh board).changes (Walker.changes_after board .fresh operations)
  refine ⟨sound.exists_room, ?_⟩
  intro distance room
  obtain ⟨count, strode, cases⟩ := run_toWall_cases room
  refine ⟨?_, ?_, ?_, strode.heading⟩
  · intro few
    rcases cases with ⟨-, rfl, fault⟩ | ⟨enough, -⟩ | ⟨enough, -⟩
    · exact ⟨fault, strode⟩
    · exact absurd few (Nat.not_lt.mpr enough)
    · exact absurd few (Nat.not_lt.mpr enough)
  · intro enough within
    rcases cases with ⟨few, -⟩ | ⟨-, -, rfl, through⟩ | ⟨-, short, -⟩
    · exact absurd few (Nat.not_lt.mpr enough)
    · exact ⟨through, strode⟩
    · exact absurd short (Nat.not_lt.mpr within)
  · intro enough short
    rcases cases with ⟨few, -⟩ | ⟨-, within, -⟩ | ⟨-, -, rfl, fault⟩
    · exact absurd few (Nat.not_lt.mpr enough)
    · exact absurd short (Nat.not_lt.mpr within)
    · exact ⟨fault, strode⟩

/-- Three free cells lie south of a walker that has turned in its corner, which is itself a wall.
Seven steps and three passes take it there; a step or a pass fewer do not. -/
theorem walk_down_to_edge :
    let board : Board := ⟨4, #[.wall, .empty, .empty, .empty, .empty, .wall, .wall, .empty,
      .empty, .empty, .empty, .empty, .finish, .empty, .empty, .empty], rfl⟩
    let walker := Walker.fresh.after board [.turn .right]
    let through := toWall.run board ⟨3, 7⟩ walker
    let refused := toWall.run board ⟨3, 6⟩ walker
    let gaveUp := toWall.run board ⟨2, 7⟩ walker
    (∃ distance, walker.Room board distance) ∧ walker.Room board 3 ∧
      (through.fault? = none ∧ walker.Strode 3 through.machine.walker) ∧
      (refused.fault? = some ⟨.stepLimit 6, ⟨⟨0, 2⟩, .south⟩⟩ ∧
        walker.Strode 2 refused.machine.walker) ∧
      gaveUp.fault? = some ⟨.passLimit .wallAhead 2, ⟨⟨0, 2⟩, .south⟩⟩ ∧
        walker.Strode 2 gaveUp.machine.walker := by
  intro board walker through refused gaveUp
  have room : walker.Room board 3 := ⟨by decide, by decide +kernel, by decide +kernel⟩
  have law (limits : Limits) := walk_to_wall_is_exact board limits [.turn .right]
  have half : ((⟨3, 6⟩ : Limits).steps - 1) / 2 = 2 := by decide
  have early := (((law ⟨3, 6⟩).2 3 room).1 (by decide)).2
  rw [half] at early
  have arrived := ((law ⟨3, 7⟩).2 3 room).2.1 (by decide) (by decide)
  refine ⟨(law ⟨3, 7⟩).1 (by decide), room, arrived, ?_, ?_⟩
  · exact ⟨by decide +kernel, early⟩
  · exact ⟨by decide +kernel, (((law ⟨2, 7⟩).2 3 room).2.2.1 (by decide) (by decide)).2⟩

end Program
end Boardwalk
