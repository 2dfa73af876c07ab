import Boardwalk.Proofs.Outline

/-!
# What warnings tell

A text is warned about for its loops: that one never runs, as soon as its line is read,
and that its block is empty, as soon as the block is closed. Blocks are closed late, but
only the innermost one can be empty, and then it is the very next line that closes it. So
the warnings stand in the order of the lines. What they are about is said first of the
lines alone, with what starts behind each of them, and then of the commands that were read.
-/
namespace Boardwalk

mutual

/-- A command and then the commands of its block, in reading order. -/
def Command.nodes : Command → List Command
  | .act action => [.act action]
  | .loop how body => .loop how body :: blockNodes body

def blockNodes : List Command → List Command
  | [] => []
  | command :: rest => command.nodes ++ blockNodes rest

end

def Program.nodes (program : Program) : List Command := blockNodes program

namespace Line

/-- The warnings about the loop of a line, as a log has them: that it never runs, and that its block
is empty. -/
def warnings (line : Line) (empty : Bool) : List Record :=
  match Statement.read line.content with
  | .ok (.loop how) =>
    (if how = .counted 0 then
      [⟨.warn, "gridwalk", "Repeat 0 at line " ++ Decimal.ofNat line.number ++
        " never runs its block"⟩]
    else []) ++
    if empty then
      [⟨.warn, "gridwalk", "empty block after '" ++ String.ofList line.content ++ "' at line " ++
        Decimal.ofNat line.number⟩]
    else []
  | _ => []

/-- Where the first of some lines starts; behind them something starts at `indent`. -/
def startOf (indent : Nat) : List Line → Nat
  | [] => indent
  | line :: _ => line.indent

/-- The warnings of lines behind which something starts at `indent`. -/
def warningsBefore (indent : Nat) : List Line → List Record
  | [] => []
  | line :: lines =>
    line.warnings (startOf indent lines < line.indent + Program.indentWidth) ++
      warningsBefore indent lines

theorem level_of_mem_warnings {line : Line} {empty : Bool} {record : Record}
    (member : record ∈ line.warnings empty) : record.level = .warn := by
  unfold warnings at member
  split at member
  case h_1 how read =>
    rcases List.mem_append.mp member with never | hollow
    · split at never
      · rw [List.mem_singleton.mp never]
      · cases never
    · split at hollow
      · rw [List.mem_singleton.mp hollow]
      · cases hollow
  case h_2 => cases member

theorem level_of_mem_warningsBefore {indent : Nat} {lines : List Line} {record : Record}
    (member : record ∈ warningsBefore indent lines) : record.level = .warn := by
  induction lines with
  | nil => cases member
  | cons line lines ih =>
      rcases List.mem_append.mp member with first | later
      · exact level_of_mem_warnings first
      · exact ih later

end Line

namespace Outline

def records (outline : Outline) : List Record := outline.notices.map Notice.record

/-- A block with something in it is closed in silence, and so are the blocks around it. -/
theorem notices_closeTo (indent : Nat) (frames : List Frame) {block : List Command}
    (ne : block ≠ []) (notices : List Notice) :
    (closeTo indent frames block notices).notices = notices := by
  induction frames generalizing block notices with
  | nil => rfl
  | cons frame frames ih =>
      have silent : closing frame block = [] := by
        rw [closing, if_neg (by simpa using ne)]
      rw [closeTo, silent, List.nil_append]
      split
      · exact ih (List.cons_ne_nil _ _) notices
      · rfl

theorem notices_dedent_act (outline : Outline) (action : Action) (indent : Nat) :
    ((outline.act action).dedent indent).notices = outline.notices :=
  notices_closeTo indent outline.frames (List.cons_ne_nil _ _) outline.notices

/-- A block that was just opened is found empty if the next line is left of it. -/
theorem notices_dedent_enter (outline : Outline) (line : Line) (how : Loop) (indent : Nat) :
    ((outline.enter line how).dedent indent).notices =
      (if indent < Program.indentWidth * (outline.depth + 1) then
        [.emptyBlock (String.ofList line.content) line.number] else []) ++
      (opening line how ++ outline.notices) := by
  rw [dedent, enter, depth, closeTo]
  split
  · rw [notices_closeTo indent outline.frames (List.cons_ne_nil _ _)]
    rfl
  · rfl

/-- What a line is warned about is known once the start of the next one is. -/
theorem records_dedent_of_place {outline next : Outline} {line : Line}
    (stands : line.indent = Program.indentWidth * outline.depth)
    (placed : outline.place line = (next, none)) (indent : Nat) :
    (next.dedent indent).records =
      (line.warnings (indent < line.indent + Program.indentWidth)).reverse ++ outline.records := by
  unfold place at placed
  unfold Line.warnings records
  split at placed
  case h_1 => cases placed
  case h_2 action read =>
    cases placed
    rw [notices_dedent_act, read]
    rfl
  case h_3 how read =>
    cases placed
    rw [notices_dedent_enter, read, stands, ← Nat.mul_succ]
    simp only [opening, decide_eq_true_eq]
    split <;> split <;> rfl

/-- A line at fault still closes the blocks that it is left of. -/
theorem Holds.add_of_fault {outline : Outline} {lines : List Line} {line : Line}
    {error : ParseError} (h : outline.Holds lines)
    (fault : line.fault? lines.getLast? = some error) :
    outline.add line = (outline.dedent line.indent, some error) := by
  have stands := indent_eq_depth_dedent_iff h.room line
  rcases Line.fault?_eq_some_iff.mp fault with ⟨misfit, rfl⟩ | ⟨fits, mistake, read, rfl⟩
  · rw [Outline.add, if_neg fun equal => misfit (stands.mp equal)]
  · rw [Outline.add, if_pos (stands.mpr fits), place, read]

/-- Lines without a fault leave the warnings that are due once it is known what starts behind
them. -/
theorem Holds.records_addAll {outline : Outline} {lines before : List Line}
    (h : outline.Holds lines) (sound : Line.firstFault? lines.getLast? before = none) :
    ∃ next : Outline, next.Holds (lines ++ before) ∧
      (∀ more, outline.addAll (before ++ more) = next.addAll more) ∧
      ∀ indent, (next.dedent indent).records =
        (Line.warningsBefore indent before).reverse ++
          (outline.dedent (Line.startOf indent before)).records := by
  induction before generalizing outline lines with
  | nil =>
      refine ⟨outline, ?_, fun more => rfl, fun indent => rfl⟩
      rw [List.append_nil]
      exact h
  | cons line before ih =>
      rw [Line.firstFault?, Option.or_eq_none_iff] at sound
      obtain ⟨middle, added, holds⟩ := h.add sound.1
      obtain ⟨fits, -⟩ := Line.fault?_eq_none_iff.mp sound.1
      have stands := (indent_eq_depth_dedent_iff h.room line).mpr fits
      have placed : (outline.dedent line.indent).place line = (middle, none) := by
        rw [← added, Outline.add, if_pos stands]
      obtain ⟨next, whole, goesOn, due⟩ := ih holds (by rw [List.getLast?_concat]; exact sound.2)
      rw [← List.append_cons] at whole
      refine ⟨next, whole, ?_, ?_⟩
      · intro more
        rw [List.cons_append, Outline.addAll, added]
        exact goesOn more
      · intro indent
        rw [due, records_dedent_of_place stands placed, Line.warningsBefore, List.reverse_append,
          List.append_assoc]
        rfl

end Outline

namespace Reading

def warnings (reading : Reading) : List Record :=
  reading.records.filter fun record => record.level = .warn

theorem filter_warningsBefore (indent : Nat) (lines : List Line) :
    (Line.warningsBefore indent lines).filter (fun record => record.level = .warn) =
      Line.warningsBefore indent lines := by
  refine List.filter_eq_self.mpr fun record member => ?_
  exact decide_eq_true (Line.level_of_mem_warningsBefore member)

/-- Behind the last line every block is closed, as by a line that starts at the very left. -/
theorem warnings_of_no_fault {lines : List Line} (sound : Line.firstFault? none lines = none) :
    (ofLines lines).warnings = Line.warningsBefore 0 lines := by
  obtain ⟨outline, -, added, due⟩ := Outline.holds_start.records_addAll sound
  have last := added []
  rw [List.append_nil, Outline.addAll] at last
  have told : outline.close.notices.map Notice.record = (Line.warningsBefore 0 lines).reverse :=
    (due 0).trans (List.append_nil _)
  rw [warnings, records, ofLines, last]
  simp only [List.map_cons, List.map_append, List.map_reverse, told, List.reverse_reverse]
  simp [filter_warningsBefore, Notice.record, Notice.isWarning]

/-- At a fault the blocks are closed that the faulty line is left of, and no others. -/
theorem warnings_of_fault {before after : List Line} {faulty : Line} {error : ParseError}
    (sound : Line.firstFault? none before = none)
    (fault : faulty.fault? before.getLast? = some error) :
    (ofLines (before ++ faulty :: after)).warnings =
      Line.warningsBefore faulty.indent before := by
  obtain ⟨outline, holds, added, due⟩ := Outline.holds_start.records_addAll sound
  have stopped := added (faulty :: after)
  rw [Outline.addAll, holds.add_of_fault fault] at stopped
  have told : (outline.dedent faulty.indent).notices.map Notice.record =
      (Line.warningsBefore faulty.indent before).reverse :=
    (due faulty.indent).trans (List.append_nil _)
  rw [warnings, records, ofLines, stopped]
  simp only [List.map_cons, List.map_reverse, told, List.reverse_reverse]
  simp [filter_warningsBefore, Notice.record, Notice.isWarning]

end Reading

mutual

theorem Command.map_header_nodes (command : Command) (depth : Nat) :
    command.nodes.map Command.header = (command.listing depth).map Prod.snd := by
  match command with
  | .act action => rfl
  | .loop how body =>
      rw [Command.nodes, Command.listing, List.map_cons, List.map_cons,
        map_header_blockNodes body (depth + 1)]
      rfl

theorem map_header_blockNodes (block : List Command) (depth : Nat) :
    (blockNodes block).map Command.header = (blockListing depth block).map Prod.snd := by
  match block with
  | [] => rfl
  | command :: rest =>
      rw [blockNodes, blockListing, List.map_append, List.map_append,
        Command.map_header_nodes command depth, map_header_blockNodes rest depth]

end

namespace Line

def warningsOf (lines : List Line) (nodes : List Command) : List Record :=
  (lines.zip nodes).flatMap fun (line, node) => line.warnings node.body.isEmpty

theorem warningsOf_append {a : List Line} {m : List Command} (same : a.length = m.length)
    (b : List Line) (n : List Command) :
    warningsOf (a ++ b) (m ++ n) = warningsOf a m ++ warningsOf b n := by
  rw [warningsOf, List.zip_append same, List.flatMap_append]
  rfl

/-- A block starts where its commands stand, unless it has none. -/
theorem startOf_append {depth : Nat} {block : List Command} {lines : List Line}
    (told : lines.Forall₂ Says (blockListing depth block)) (indent : Nat) (rest : List Line) :
    startOf indent (lines ++ rest) =
      if block.isEmpty then startOf indent rest else Program.indentWidth * depth := by
  cases block with
  | nil =>
      rw [List.forall₂_nil_right_iff.mp told]
      rfl
  | cons command block =>
      rw [blockListing, Command.listing_eq_cons, List.cons_append] at told
      obtain ⟨line, others, first, -, rfl⟩ := List.forall₂_cons_right_iff.mp told
      exact first.1

theorem length_nodes {depth : Nat} {command : Command} {lines : List Line}
    (told : lines.Forall₂ Says (command.listing depth)) : lines.length = command.nodes.length := by
  have headers := congrArg List.length (command.map_header_nodes depth)
  rw [List.length_map, List.length_map] at headers
  exact told.length_eq.trans headers.symm

mutual

theorem warningsBefore_command (command : Command) {depth indent : Nat} {lines rest : List Line}
    (told : lines.Forall₂ Says (command.listing depth))
    (left : startOf indent rest < Program.indentWidth * (depth + 1)) :
    warningsBefore indent (lines ++ rest) =
      warningsOf lines command.nodes ++ warningsBefore indent rest := by
  match command with
  | .act action =>
      obtain ⟨line, others, first, none, rfl⟩ := List.forall₂_cons_right_iff.mp told
      cases none
      have silent (empty : Bool) : line.warnings empty = [] := by rw [warnings, first.2]
      simp only [List.cons_append, List.nil_append, warningsBefore, silent]
      simp [warningsOf, Command.nodes, silent]
  | .loop how body =>
      rw [Command.listing] at told
      obtain ⟨line, others, first, inside, rfl⟩ := List.forall₂_cons_right_iff.mp told
      have deeper : Program.indentWidth * (depth + 1) < Program.indentWidth * (depth + 1 + 1) :=
        Nat.mul_lt_mul_of_pos_left (Nat.lt_succ_self (depth + 1)) (by decide)
      -- What stands behind the header is the block, or what stands behind the whole loop.
      have empty : decide (startOf indent (others ++ rest) < line.indent + Program.indentWidth) =
          body.isEmpty := by
        rw [startOf_append inside, first.1, ← Nat.mul_succ]
        cases body with
        | nil => exact decide_eq_true left
        | cons command body => exact decide_eq_false (Nat.lt_irrefl _)
      rw [List.cons_append, warningsBefore, empty,
        warningsBefore_block body inside (Nat.lt_trans left deeper), ← List.append_assoc]
      rfl

theorem warningsBefore_block (block : List Command) {depth indent : Nat} {lines rest : List Line}
    (told : lines.Forall₂ Says (blockListing depth block))
    (left : startOf indent rest < Program.indentWidth * (depth + 1)) :
    warningsBefore indent (lines ++ rest) =
      warningsOf lines (blockNodes block) ++ warningsBefore indent rest := by
  match block with
  | [] =>
      cases told
      rfl
  | command :: block =>
      obtain ⟨first, second, headers, others, rfl⟩ :
          ∃ first second, first.Forall₂ Says (command.listing depth) ∧
            second.Forall₂ Says (blockListing depth block) ∧ lines = first ++ second :=
        ⟨_, _, List.forall₂_take_append _ _ _ told, List.forall₂_drop_append _ _ _ told,
          (List.take_append_drop _ _).symm⟩
      have next : startOf indent (second ++ rest) < Program.indentWidth * (depth + 1) := by
        rw [startOf_append others]
        split
        · exact left
        · exact Nat.mul_lt_mul_of_pos_left (Nat.lt_succ_self depth) (by decide)
      rw [List.append_assoc, warningsBefore_command command headers next,
        warningsBefore_block block others left, blockNodes,
        warningsOf_append (length_nodes headers), List.append_assoc]

end

/-- The lines of a program and its commands go together in reading order. -/
theorem read_eq_header {program : Program} {lines : List Line}
    (told : lines.Forall₂ Says program.listing) :
    lines.Forall₂ (fun line node => Statement.read line.content = .ok node.header)
      program.nodes := by
  have headers : lines.Forall₂ (fun line header => Statement.read line.content = .ok header)
      (program.listing.map Prod.snd) :=
    List.forall₂_map_right_iff.mpr (told.imp fun _ _ said => said.2)
  rwa [Program.listing, ← map_header_blockNodes, List.forall₂_map_right_iff] at headers

theorem warningsBefore_program {program : Program} {lines : List Line}
    (told : lines.Forall₂ Says program.listing) :
    warningsBefore 0 lines = warningsOf lines program.nodes := by
  have whole : warningsBefore 0 (lines ++ []) = warningsOf lines program.nodes ++ [] :=
    warningsBefore_block program told (by decide)
  rwa [List.append_nil, List.append_nil] at whole

/-- What starts behind a line in front of a fault is the next line. -/
theorem warningsBefore_eq_zip (before after : List Line) (faulty : Line) :
    warningsBefore faulty.indent before =
      (before.zip (before ++ faulty :: after).tail).flatMap fun (line, next) =>
        line.warnings (next.indent < line.indent + Program.indentWidth) := by
  induction before with
  | nil => rfl
  | cons line before ih =>
      rw [warningsBefore, ih]
      cases before with
      | nil => rfl
      | cons next before => rfl

end Line

namespace Program

/-- A text is warned about for its loops and for nothing else, in the order of their lines. If it is
read, the loops that have an empty block are those that do in the program. If it is refused, only
the loops in front of the faulty line count, and their blocks are empty if the next line, which
may be the faulty one, starts left of them. -/
theorem warnings_tell_of_loops (tabWidth : Nat) (source : String) :
    let lines := Line.ofSource tabWidth source
    let warnings := (Reading.ofSource tabWidth source).warnings
    (∀ program, parseWith tabWidth source = .ok program →
      lines.Forall₂ (fun line node => Statement.read line.content = .ok node.header)
        program.nodes ∧
      warnings = (lines.zip program.nodes).flatMap fun (line, node) =>
        line.warnings node.body.isEmpty) ∧
    ∀ error, parseWith tabWidth source = .error error →
      ∃ before faulty after, lines = before ++ faulty :: after ∧ faulty.number = error.line ∧
        (∃ program, (Reading.ofLines before).result = .ok program) ∧
        warnings = (before.zip lines.tail).flatMap fun (line, next) =>
          line.warnings (next.indent < line.indent + indentWidth) := by
  intro lines warnings
  have warned : warnings = (Reading.ofLines lines).warnings := rfl
  refine ⟨?_, ?_⟩
  · intro program passed
    have sound : Line.firstFault? none lines = none :=
      Reading.exists_result_iff.mp ⟨program, passed⟩
    have told : lines.Forall₂ Line.Says program.listing := Reading.says_of_result passed
    refine ⟨Line.read_eq_header told, ?_⟩
    rw [warned, Reading.warnings_of_no_fault sound, Line.warningsBefore_program told]
    rfl
  · intro error failed
    have fault : Line.firstFault? none lines = some error :=
      Reading.result_eq_error_iff.mp failed
    obtain ⟨before, faulty, after, split, clean, found⟩ := Line.exists_of_firstFault? fault
    rw [Option.or_none] at found
    refine ⟨before, faulty, after, split, (Line.line_of_fault? found).symm,
      Reading.exists_result_iff.mpr clean, ?_⟩
    rw [warned, split, Reading.warnings_of_fault clean found]
    exact Line.warningsBefore_eq_zip before after faulty

/-- A loop that never runs holds an empty one. Both are warned about, in the order of their lines,
whether the text ends there or goes on with a line that is refused for standing between their
levels. -/
theorem warnings_of_loop_in_loop :
    let loops := "Repeat 0\n  \n    RepeatUntil GridEdge "
    let warnings : List Record :=
      [⟨.warn, "gridwalk", "Repeat 0 at line 1 never runs its block"⟩,
        ⟨.warn, "gridwalk", "empty block after 'RepeatUntil GridEdge' at line 3"⟩]
    (parseWith 4 loops = .ok [.loop (.counted 0) [.loop (.guarded .gridEdge) []]] ∧
      (Reading.ofSource 4 loops).warnings = warnings) ∧
    parseWith 4 (loops ++ "\n  Fly") = .error ⟨4, .indentation "  Fly"⟩ ∧
      (Reading.ofSource 4 (loops ++ "\n  Fly")).warnings = warnings := by
  intro loops warnings
  have passed : parseWith 4 loops = .ok [.loop (.counted 0) [.loop (.guarded .gridEdge) []]] := by
    decide +kernel
  have failed : parseWith 4 (loops ++ "\n  Fly") = .error ⟨4, .indentation "  Fly"⟩ := by
    decide +kernel
  have lines : Line.ofSource 4 (loops ++ "\n  Fly") =
      [⟨1, "Repeat 0"⟩, ⟨3, "    RepeatUntil GridEdge "⟩, ⟨4, "  Fly"⟩] := by decide +kernel
  refine ⟨⟨passed, ?_⟩, failed, ?_⟩
  · have told := ((warnings_tell_of_loops 4 loops).1 _ passed).2
    exact told.trans (by decide +kernel)
  · obtain ⟨before, faulty, after, split, number, -, told⟩ :=
      (warnings_tell_of_loops 4 (loops ++ "\n  Fly")).2 _ failed
    rw [lines] at split told
    -- The faulty line is the one with the number four, so two lines stand before it.
    rcases before with _ | ⟨first, _ | ⟨second, _ | ⟨third, others⟩⟩⟩
    · cases split
      cases number
    · cases split
      cases number
    · cases split
      exact told.trans (by decide +kernel)
    · cases others <;> cases split

end Program
end Boardwalk
