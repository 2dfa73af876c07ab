import Boardwalk.Proofs.Faults
import Boardwalk.Proofs.Limits
import Mathlib.Dynamics.PeriodicPts.Defs

/-!
# Three histories of one run

A move that is made is told three times: in the log, as a point that was visited and as an
entry in the record of the walker. The three are written one after the other and never by
themselves, so they tell the same moves in the same order, however the run ends. The record
also has the turns, and these alone say where the walker looks in the end. What the walker
did before the run is in front of all this and does not matter.
-/
namespace Boardwalk

structure Leg where
  steps : Int64
  source : Point
  target : Point

namespace Leg

def entry (leg : Leg) : String := "Move " ++ Decimal.ofInt leg.steps.toInt

def record (leg : Leg) : Record where
  level := .trace
  origin := "gridwalk::character"
  message := "move " ++ Decimal.ofInt leg.steps.toInt ++ ": " ++ leg.source.text ++ " -> " ++
    leg.target.text

end Leg

def isMoveEntry (entry : String) : Bool := "Move ".toList.isPrefixOf entry.toList

/-- The clockwise quarters that the turns in a record come to. -/
def quarters (entries : List String) : Nat :=
  (entries.count "Turn right" + 3 * entries.count "Turn left") % 4

def traced (events : List Event) : List Record :=
  (events.map Event.record).filter fun record => record.level = .trace

/-- What came to the log and to the record of a walker while it went from the first state to the
last one, and the moves that it made. -/
structure Chronicle (board : Board) (first last : Walker) (log : List Record)
    (entries : List String) (legs : List Leg) : Prop where
  logged : log = legs.map Leg.record
  visited : last.visited.toList = first.visited.toList ++ legs.map Leg.target
  recorded : last.moves.toList = first.moves.toList ++ entries
  moves : entries.filter isMoveEntry = legs.map Leg.entry
  turns : ∀ entry ∈ entries, isMoveEntry entry = false →
    entry = "Turn left" ∨ entry = "Turn right"
  /-- Each move starts where the one before it led to. -/
  chained : legs.map Leg.source ++ [last.position] = first.position :: legs.map Leg.target
  heading : last.heading = Heading.next^[quarters entries] first.heading
  free : ∀ leg ∈ legs, board.isOutside leg.target = false ∧ board.isWall leg.target = false

theorem traced_append (a b : List Event) : traced (a ++ b) = traced a ++ traced b := by
  rw [traced, List.map_append, List.filter_append]
  rfl

theorem traced_of_ne {event : Event} (other : event.record.level ≠ .trace) : traced [event] = [] :=
  List.filter_cons_of_neg (by simpa using other)

namespace Heading

theorem iterate_next_mod (heading : Heading) (n : Nat) :
    next^[n % 4] heading = next^[n] heading := by
  have periodic : Function.IsPeriodicPt next 4 heading := next_four heading
  exact periodic.iterate_mod_apply n

theorem iterate_quarters_append (heading : Heading) (a b : List String) :
    next^[quarters (a ++ b)] heading = next^[quarters b] (next^[quarters a] heading) := by
  have sum : (a ++ b).count "Turn right" + 3 * (a ++ b).count "Turn left" =
      (b.count "Turn right" + 3 * b.count "Turn left") +
        (a.count "Turn right" + 3 * a.count "Turn left") := by
    rw [List.count_append, List.count_append]
    omega
  rw [quarters, quarters, quarters, iterate_next_mod, iterate_next_mod, iterate_next_mod, sum,
    Function.iterate_add_apply]

end Heading

namespace Chronicle

variable {board : Board}

theorem refl (board : Board) (walker : Walker) : Chronicle board walker walker [] [] [] where
  logged := rfl
  visited := (List.append_nil _).symm
  recorded := (List.append_nil _).symm
  moves := rfl
  turns := fun _ member => absurd member List.not_mem_nil
  chained := rfl
  heading := rfl
  free := fun _ member => absurd member List.not_mem_nil

theorem trans {a b c : Walker} {log log' : List Record} {entries entries' : List String}
    {legs legs' : List Leg} (ab : Chronicle board a b log entries legs)
    (bc : Chronicle board b c log' entries' legs') :
    Chronicle board a c (log ++ log') (entries ++ entries') (legs ++ legs') where
  logged := by rw [ab.logged, bc.logged, List.map_append]
  visited := by rw [bc.visited, ab.visited, List.map_append, List.append_assoc]
  recorded := by rw [bc.recorded, ab.recorded, List.append_assoc]
  moves := by rw [List.filter_append, ab.moves, bc.moves, List.map_append]
  turns := by
    intro entry member
    rcases List.mem_append.mp member with earlier | later
    · exact ab.turns entry earlier
    · exact bc.turns entry later
  chained := by
    rw [List.map_append, List.append_assoc, bc.chained, List.append_cons, ab.chained,
      List.map_append, List.cons_append]
  heading := by rw [bc.heading, ab.heading, Heading.iterate_quarters_append]
  free := by
    intro leg member
    rcases List.mem_append.mp member with earlier | later
    · exact ab.free leg earlier
    · exact bc.free leg later

theorem turn (board : Board) (walker : Walker) (side : Side) :
    Chronicle board walker ((walker.turn side).record (Action.turn side).text) []
      [(Action.turn side).text] [] where
  logged := rfl
  visited := (List.append_nil _).symm
  recorded := Array.toList_push
  moves := by cases side <;> decide
  turns := by
    intro entry member _
    rw [List.mem_singleton.mp member]
    cases side with
    | left => exact .inl rfl
    | right => exact .inr rfl
  chained := rfl
  heading := by cases side <;> rfl
  free := fun _ member => absurd member List.not_mem_nil

theorem isMoveEntry_entry (leg : Leg) : isMoveEntry leg.entry = true := by
  rw [isMoveEntry, Leg.entry, String.toList_append]
  exact List.isPrefixOf_iff_prefix.mpr (List.prefix_append _ _)

theorem quarters_entry (leg : Leg) : quarters [leg.entry] = 0 := by
  have absent {entry : String} (turn : isMoveEntry entry = false) :
      [leg.entry].count entry = 0 := by
    rw [List.count_eq_zero, List.mem_singleton]
    rintro rfl
    cases turn.symm.trans (isMoveEntry_entry leg)
  rw [quarters, absent (by decide), absent (by decide)]

theorem move {walker : Walker} {amount : Int64} (free : walker.blocked? board amount = none) :
    let leg : Leg := ⟨amount, walker.position, walker.ahead amount⟩
    Chronicle board walker
      ((walker.goTo (walker.ahead amount)).record (Action.move amount).text) [leg.record]
      [leg.entry] [leg] where
  logged := rfl
  visited := Array.toList_push
  recorded := Array.toList_push
  moves := List.filter_cons_of_pos (isMoveEntry_entry _)
  turns := by
    intro entry member turned
    rw [List.mem_singleton.mp member, isMoveEntry_entry] at turned
    cases turned
  chained := rfl
  heading := by
    rw [quarters_entry]
    rfl
  free := by
    intro leg member
    rw [List.mem_singleton.mp member]
    exact Walker.blocked?_eq_none_iff.mp free

end Chronicle

namespace Machine

variable {board : Board} {limits : Limits}

/-- What comes to the events of a machine on the way to another one is a chronicle of its walker. -/
def Chronicles (board : Board) (a b : Machine) : Prop :=
  ∃ events entries legs, b.events.toList = a.events.toList ++ events ∧
    Chronicle board a.walker b.walker (traced events) entries legs

theorem Chronicles.refl (board : Board) (machine : Machine) : Chronicles board machine machine :=
  ⟨[], [], [], (List.append_nil _).symm, .refl board machine.walker⟩

theorem Chronicles.trans {a b c : Machine} (ab : Chronicles board a b)
    (bc : Chronicles board b c) : Chronicles board a c := by
  obtain ⟨events, entries, legs, grown, chronicle⟩ := ab
  obtain ⟨events', entries', legs', grown', chronicle'⟩ := bc
  refine ⟨events ++ events', entries ++ entries', legs ++ legs', ?_, ?_⟩
  · rw [grown', grown, List.append_assoc]
  · rw [traced_append]
    exact chronicle.trans chronicle'

/-- An event that does not tell of a move leaves the walker alone. -/
theorem chronicles_emit (machine : Machine) {event : Event}
    (other : event.record.level ≠ .trace) : Chronicles board machine (machine.emit event) := by
  refine ⟨[event], [], [], Array.toList_push, ?_⟩
  rw [traced_of_ne other]
  exact .refl board machine.walker

theorem chronicles_act {machine next : Machine} {action : Action}
    (done : machine.act board action = .done next) : Chronicles board machine next := by
  cases action with
  | turn side =>
      rw [act_turn] at done
      cases done
      exact ⟨[], _, [], (List.append_nil _).symm, .turn board machine.walker side⟩
  | move amount =>
      rw [act_move] at done
      split at done
      case h_1 => cases done
      case h_2 free =>
        cases done
        exact ⟨_, _, _, Array.toList_push, .move free⟩

theorem Step.chronicles {a b : Machine} {actions : List Action}
    (h : Step board limits a actions b) : Chronicles board a b := by
  cases h with
  | tick ticked =>
      obtain ⟨-, rfl⟩ := tick_eq_done_iff.mp ticked
      exact .refl board a
  | act ticked acted =>
      obtain ⟨-, rfl⟩ := tick_eq_done_iff.mp ticked
      have after : Chronicles board ⟨a.walker, a.steps + 1, a.events⟩ b := chronicles_act acted
      exact after
  | leftBetween => exact chronicles_emit a (show Level.debug ≠ .trace by decide)
  | leftMidPass => exact chronicles_emit a (show Level.debug ≠ .trace by decide)

theorem Reaches.chronicles {a b : Machine} (h : Reaches board limits a b) :
    Chronicles board a b := by
  obtain ⟨actions, stretch⟩ := h
  induction stretch with
  | refl => exact .refl board _
  | tail stretch step ih => exact ih.trans step.chronicles

end Machine

namespace Program

/-- What a run says about itself as a whole is no move. -/
theorem traced_run (board : Board) (limits : Limits) (program : Program) (walker : Walker) :
    traced (program.run board limits walker).machine.events.toList =
      traced (Machine.execBlock board limits program
        (program.starting walker)).machine.events.toList := by
  rw [run_eq]
  cases Machine.execBlock board limits program (program.starting walker) with
  | done machine =>
      have silent (stance : Stance) (moves steps : Nat) :
          traced [.finished stance moves steps] = [] :=
        traced_of_ne (show Level.debug ≠ .trace by decide)
      rw [Progress.andThen_done, Progress.machine, Machine.events_emit, Array.toList_push,
        traced_append, silent, List.append_nil]
      rfl
  | stopped fault machine => rfl

theorem chronicle_run (board : Board) (limits : Limits) (program : Program) (walker : Walker) :
    ∃ entries legs, Chronicle board walker (program.run board limits walker).machine.walker
      (traced (program.run board limits walker).machine.events.toList) entries legs := by
  have reached : Machine.Reaches board limits (program.starting walker) _ :=
    Machine.reaches_execBlock program (program.starting walker)
  obtain ⟨events, entries, legs, grown, chronicle⟩ := reached.chronicles
  have started : traced (program.starting walker).events.toList = [] :=
    traced_of_ne (show Level.debug ≠ .trace by decide)
  refine ⟨entries, legs, ?_⟩
  rw [traced_run, walker_run, grown, traced_append, started, List.nil_append]
  exact chronicle

/-- The target of a refused move is not one that a move can lead to. -/
theorem not_free_of_refused {board : Board} {limits : Limits} {program : Program} {walker : Walker}
    {fault : Fault} {target : Point} (met : (program.run board limits walker).fault? = some fault)
    (refused : fault.cause = .offBoard target ∨ fault.cause = .wall target) :
    ¬ (board.isOutside target = false ∧ board.isWall target = false) := by
  rintro ⟨inside, free⟩
  have explained := explained_run board limits program walker
  rw [Progress.eq_stopped_of_fault? met] at explained
  have cause := explained.cause
  rcases refused with refused | refused
  · rw [refused] at cause
    cases cause with
    | offBoard _ outside => cases inside.symm.trans outside
  · rw [refused] at cause
    cases cause with
    | wall _ cell =>
        rw [Board.isWall, cell] at free
        cases free

/-- However a run ends, its log, the points visited and the record of the walker have grown by the
same moves in the same order. Whatever else is in the record are turns, and the walker looks where
these lead. A move that is refused is in none of the three: no move led to its target, and it leaves
the walker and the log as they were. -/
theorem histories_of_run_agree (board : Board) (limits : Limits) (program : Program)
    (walker : Walker) :
    let progress := program.run board limits walker
    let last := progress.machine.walker
    ∃ (legs : List Leg) (entries : List String),
      progress.records.filter (fun record => record.level = .trace) = legs.map Leg.record ∧
      last.visited.toList = walker.visited.toList ++ legs.map Leg.target ∧
      last.moves.toList = walker.moves.toList ++ entries ∧
      entries.filter isMoveEntry = legs.map Leg.entry ∧
      (∀ entry ∈ entries, isMoveEntry entry = false →
        entry = "Turn left" ∨ entry = "Turn right") ∧
      legs.map Leg.source ++ [last.position] = walker.position :: legs.map Leg.target ∧
      last.heading = Heading.next^[(entries.count "Turn right" + 3 * entries.count "Turn left") % 4]
        walker.heading ∧
      (∀ leg ∈ legs, board.isOutside leg.target = false ∧ board.isWall leg.target = false) ∧
      (∀ fault ∈ progress.fault?, ∀ target,
        fault.cause = .offBoard target ∨ fault.cause = .wall target →
          target ∉ legs.map Leg.target) ∧
      ∀ machine amount fault next,
        Machine.act board machine (.move amount) = .stopped fault next → next = machine := by
  intro progress last
  obtain ⟨entries, legs, chronicle⟩ := chronicle_run board limits program walker
  refine ⟨legs, entries, chronicle.logged, chronicle.visited, chronicle.recorded, chronicle.moves,
    chronicle.turns, chronicle.chained, chronicle.heading, chronicle.free, ?_,
    fun _ _ _ _ => Machine.machine_of_act_stopped⟩
  intro fault met target refused member
  obtain ⟨leg, made, rfl⟩ := List.mem_map.mp member
  exact not_free_of_refused met refused (chronicle.free leg made)

/-- A walker that has been about before goes one step and turns three times. Its second step back is
refused, and of that there is nothing but the fault. -/
theorem histories_after_refused_move :
    let walker : Walker := ⟨⟨⟨1, 0⟩, .south⟩, #["Move 1", "note"], #[.origin, ⟨1, 0⟩]⟩
    let program : Program :=
      [.loop (.counted 9) [.act (.turn .left), .act (.move (-1)), .act (.turn .right)]]
    let progress := program.run (.blank 2) .standard walker
    progress.fault? = some ⟨.offBoard ⟨-1, 0⟩, ⟨⟨0, 0⟩, .east⟩⟩ ∧
    ∃ (legs : List Leg) (entries : List String),
      entries = ["Turn left", "Move -1", "Turn right", "Turn left"] ∧
      progress.records.filter (fun record => record.level = .trace) = legs.map Leg.record ∧
      legs.map Leg.target = [⟨0, 0⟩] ∧ ⟨-1, 0⟩ ∉ legs.map Leg.target := by
  intro walker program
  have fault : (program.run (.blank 2) .standard walker).fault? =
      some ⟨.offBoard ⟨-1, 0⟩, ⟨⟨0, 0⟩, .east⟩⟩ := by decide +kernel
  have visited : (program.run (.blank 2) .standard walker).machine.walker.visited.toList =
      walker.visited.toList ++ [⟨0, 0⟩] := by decide +kernel
  have moves : (program.run (.blank 2) .standard walker).machine.walker.moves.toList =
      walker.moves.toList ++ ["Turn left", "Move -1", "Turn right", "Turn left"] := by
    decide +kernel
  obtain ⟨legs, entries, logged, grown, recorded, -, -, -, -, -, refused, -⟩ :=
    histories_of_run_agree (.blank 2) .standard program walker
  rw [visited] at grown
  rw [moves] at recorded
  exact ⟨fault, legs, entries, (List.append_cancel_left recorded).symm, logged,
    (List.append_cancel_left grown).symm, refused _ fault _ (.inl rfl)⟩

end Program
end Boardwalk
