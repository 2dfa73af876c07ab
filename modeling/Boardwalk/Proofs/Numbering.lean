import Boardwalk.Source.Outline

/-!
# Line numbers are labels

Reading a program text never looks at the number of a line: it copies it into notices
and into the error. So lines that are numbered otherwise are read in the same way, and
what is said about them has the other numbers.
-/
namespace Boardwalk

def Line.renumber (f : Nat → Nat) (line : Line) : Line := ⟨f line.number, line.text⟩

def ParseError.renumber (f : Nat → Nat) (error : ParseError) : ParseError :=
  ⟨f error.line, error.mistake⟩

/-- The notice with another line number; a notice about the whole text has none. -/
def Notice.renumber (f : Nat → Nat) : Notice → Notice
  | .reading lines => .reading lines
  | .neverRuns line => .neverRuns (f line)
  | .emptyBlock header line => .emptyBlock header (f line)
  | .finished commands => .finished commands

def Frame.renumber (f : Nat → Nat) (frame : Frame) : Frame :=
  ⟨frame.line.renumber f, frame.how, frame.before⟩

def Outline.renumber (f : Nat → Nat) (outline : Outline) : Outline :=
  ⟨outline.frames.map (Frame.renumber f), outline.block, outline.notices.map (Notice.renumber f)⟩

def Reading.renumber (f : Nat → Nat) (reading : Reading) : Reading :=
  ⟨reading.result.mapError (ParseError.renumber f), reading.notices.map (Notice.renumber f)⟩

theorem Notice.isWarning_renumber (f : Nat → Nat) (notice : Notice) :
    (notice.renumber f).isWarning = notice.isWarning := by
  cases notice <;> rfl

variable (f : Nat → Nat)

namespace Outline

theorem closing_renumber (frame : Frame) (block : List Command) :
    closing (frame.renumber f) block = (closing frame block).map (Notice.renumber f) := by
  cases block <;> rfl

theorem opening_renumber (line : Line) (how : Loop) :
    opening (line.renumber f) how = (opening line how).map (Notice.renumber f) := by
  unfold opening
  split <;> rfl

theorem closeTo_renumber (indent : Nat) (frames : List Frame) (block : List Command)
    (notices : List Notice) :
    closeTo indent (frames.map (Frame.renumber f)) block (notices.map (Notice.renumber f)) =
      (closeTo indent frames block notices).renumber f := by
  induction frames generalizing block notices with
  | nil => rfl
  | cons frame frames ih =>
      rw [List.map_cons, closeTo, closeTo, List.length_map]
      split
      · rw [closing_renumber, ← List.map_append]
        exact ih _ _
      · rfl

theorem dedent_renumber (outline : Outline) (indent : Nat) :
    (outline.renumber f).dedent indent = (outline.dedent indent).renumber f :=
  closeTo_renumber f indent outline.frames outline.block outline.notices

@[simp] theorem notices_renumber (outline : Outline) :
    (outline.renumber f).notices = outline.notices.map (Notice.renumber f) := rfl

@[simp] theorem program_renumber (outline : Outline) :
    (outline.renumber f).program = outline.program := rfl

theorem close_renumber (outline : Outline) :
    (outline.renumber f).close = outline.close.renumber f :=
  dedent_renumber f outline 0

theorem depth_renumber (outline : Outline) : (outline.renumber f).depth = outline.depth :=
  List.length_map _

theorem enter_renumber (outline : Outline) (line : Line) (how : Loop) :
    (outline.renumber f).enter (line.renumber f) how = (outline.enter line how).renumber f := by
  rw [enter, enter, opening_renumber, renumber, renumber, List.map_append]
  rfl

theorem place_renumber (outline : Outline) (line : Line) :
    (outline.renumber f).place (line.renumber f) =
      (outline.place line).map (renumber f) (Option.map (ParseError.renumber f)) := by
  have content : (line.renumber f).content = line.content := rfl
  rw [place, place, content]
  cases Statement.read line.content with
  | error mistake => rfl
  | ok header =>
      cases header with
      | act action => rfl
      | loop how => exact congrArg (·, none) (enter_renumber f outline line how)

theorem add_renumber (outline : Outline) (line : Line) :
    (outline.renumber f).add (line.renumber f) =
      (outline.add line).map (renumber f) (Option.map (ParseError.renumber f)) := by
  have indent : (line.renumber f).indent = line.indent := rfl
  rw [add, add, indent, dedent_renumber, depth_renumber]
  split
  · exact place_renumber f _ line
  · rfl

theorem addAll_renumber (outline : Outline) (lines : List Line) :
    (outline.renumber f).addAll (lines.map (Line.renumber f)) =
      (outline.addAll lines).map (renumber f) (Option.map (ParseError.renumber f)) := by
  induction lines generalizing outline with
  | nil => rfl
  | cons line lines ih =>
      rw [List.map_cons, addAll, addAll, add_renumber]
      obtain ⟨next, error⟩ := outline.add line
      cases error with
      | none => exact ih next
      | some error => rfl

end Outline

namespace Reading

/-- Other numbers of the lines show in the error and in the notices and nowhere else. -/
theorem ofLines_renumber (lines : List Line) :
    ofLines (lines.map (Line.renumber f)) = (ofLines lines).renumber f := by
  have start : Outline.start = Outline.start.renumber f := rfl
  rw [ofLines, ofLines, List.length_map, start, Outline.addAll_renumber, ← start]
  obtain ⟨outline, error⟩ := Outline.start.addAll lines
  cases error with
  | some error =>
      simp only [Prod.map, Option.map, Outline.notices_renumber, renumber, List.map_cons,
        List.map_reverse]
      rfl
  | none =>
      simp only [Prod.map, Option.map, Outline.close_renumber, Outline.notices_renumber,
        Outline.program_renumber, renumber, List.map_append, List.map_cons, List.map_reverse]
      rfl

end Reading
end Boardwalk
