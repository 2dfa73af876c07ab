import Boardwalk.Command.Listing
import Boardwalk.Source.Error
import Boardwalk.Source.Line
import Boardwalk.Source.Notice

/-!
# Blocks from indentation

Lines are taken one after the other. An outline is what has been read so far: the
loops whose blocks are still open and the commands of the innermost block. A line
that starts further left than the innermost block closes blocks until it does not;
then it has to start exactly where the innermost open block stands, and only then
is its content looked at. So the first line that is at fault ends the reading, and
at that line a wrong indentation counts before wrong content.
-/
namespace Boardwalk

/-- A loop whose block is still open. -/
structure Frame where
  line : Line
  how : Loop
  /-- The commands before the loop in the block around it, newest first. -/
  before : List Command

/-- What has been read of a program text. -/
structure Outline where
  /-- The loops that are still open, innermost first. -/
  frames : List Frame
  /-- The commands of the innermost block, newest first. -/
  block : List Command
  /-- The notices so far, newest first. -/
  notices : List Notice

namespace Outline

def start : Outline := ⟨[], [], []⟩

def depth (outline : Outline) : Nat := outline.frames.length

/-- The notices about a loop that is closed with a block. -/
def closing (frame : Frame) (block : List Command) : List Notice :=
  if block.isEmpty then [.emptyBlock (String.ofList frame.line.content) frame.line.number] else []

/-- Closes open blocks, innermost first, until `indent` is not left of the innermost one. -/
def closeTo (indent : Nat) : List Frame → List Command → List Notice → Outline
  | [], block, notices => ⟨[], block, notices⟩
  | frame :: frames, block, notices =>
    if indent < Program.indentWidth * (frames.length + 1) then
      closeTo indent frames (.loop frame.how block.reverse :: frame.before)
        (closing frame block ++ notices)
    else ⟨frame :: frames, block, notices⟩

/-- Closes the blocks that a line of an indentation is left of. -/
def dedent (outline : Outline) (indent : Nat) : Outline :=
  closeTo indent outline.frames outline.block outline.notices

def act (outline : Outline) (action : Action) : Outline :=
  { outline with block := .act action :: outline.block }

/-- The notices about a loop that is opened. -/
def opening (line : Line) (how : Loop) : List Notice :=
  if how = .counted 0 then [.neverRuns line.number] else []

def enter (outline : Outline) (line : Line) (how : Loop) : Outline where
  frames := ⟨line, how, outline.block⟩ :: outline.frames
  block := []
  notices := opening line how ++ outline.notices

/-- Adds a line that starts where the innermost block stands. -/
def place (outline : Outline) (line : Line) : Outline × Option ParseError :=
  match Statement.read line.content with
  | .error mistake => (outline, some ⟨line.number, mistake⟩)
  | .ok (.act action) => (outline.act action, none)
  | .ok (.loop how) => (outline.enter line how, none)

/-- Adds a line, or says what is wrong with it. -/
def add (outline : Outline) (line : Line) : Outline × Option ParseError :=
  let outline := outline.dedent line.indent
  if line.indent = Program.indentWidth * outline.depth then outline.place line
  else (outline, some ⟨line.number, .indentation line.text⟩)

/-- Adds lines up to the first one at fault. -/
def addAll (outline : Outline) : List Line → Outline × Option ParseError
  | [] => (outline, none)
  | line :: lines =>
    match outline.add line with
    | (outline, none) => outline.addAll lines
    | (outline, some error) => (outline, some error)

def close (outline : Outline) : Outline := outline.dedent 0

def program (outline : Outline) : Program := outline.block.reverse

end Outline

structure Reading where
  result : Except ParseError Program
  notices : List Notice

namespace Reading

def ofLines (lines : List Line) : Reading :=
  let first := Notice.reading lines.length
  match Outline.start.addAll lines with
  | (outline, some error) => ⟨.error error, first :: outline.notices.reverse⟩
  | (outline, none) =>
    let outline := outline.close
    let program := outline.program
    ⟨.ok program, first :: outline.notices.reverse ++ [.finished program.length]⟩

/-- Reads a program text in which a tab stands for `tabWidth` spaces. -/
def ofSource (tabWidth : Nat) (source : String) : Reading := ofLines (Line.ofSource tabWidth source)

def records (reading : Reading) : List Record := reading.notices.map Notice.record

end Reading

namespace Program

/-- The program of a text in which a tab stands for `tabWidth` spaces. -/
def parseWith (tabWidth : Nat) (source : String) : Except ParseError Program :=
  (Reading.ofSource tabWidth source).result

/-- The program of a text in which a tab stands for one level of indentation. -/
def parse (source : String) : Except ParseError Program := parseWith indentWidth source

end Program
end Boardwalk
