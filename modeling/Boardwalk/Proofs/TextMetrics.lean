import Boardwalk.Command.Metrics
import Boardwalk.Proofs.Parsing
import Boardwalk.Proofs.Statements

/-!
# Metrics show in the text

Every command has a line of its own, and a block is set in by one level. So what the
metrics say about a program can be counted on its lines, of which only the indentation
and the first word matter. In between stands a count that goes through the headers once,
from the first to the last, and keeps the greatest depth so far: it is not the nesting of
any block, because what came before the block is already in it.
-/
namespace Boardwalk

def Line.startsLoop (line : Line) : Bool :=
  match (Text.words line.content).head?.bind Keyword.ofLetters? with
  | some .counted | some .guarded => true
  | _ => false

/-- A line that can be read starts a loop exactly if its header is that of one. -/
theorem Line.startsLoop_of_read {line : Line} {header : Header}
    (read : Statement.read line.content = .ok header) : line.startsLoop = header.isLoop := by
  have trimmed : Text.Trimmed line.content := Text.trimmed_trim _
  obtain ⟨keyword, word, argument, named, accepted, apart⟩ :=
    (Statement.read_eq_ok_iff trimmed).mp read
  have fits := Keyword.fits_of_header? (Keyword.header?_eq_some_iff.mpr accepted)
  have words := apart.words_eq named.solid (Keyword.solid_of_fits fits)
  rw [startsLoop, words, List.head?_cons, Option.bind_some, Keyword.named_iff.mp named]
  cases accepted <;> rfl

namespace Metrics

/-- The metrics that lines show: how many there are, how many of them start loops, and one more than
the greatest depth of these. -/
def ofLines (lines : List Line) : Metrics where
  commands := lines.length
  loops := lines.countP Line.startsLoop
  nesting := ((lines.filter Line.startsLoop).map fun line =>
    line.indent / Program.indentWidth + 1).max?.getD 0

def count (metrics : Metrics) (entry : Nat × Header) : Metrics :=
  if entry.2.isLoop then
    ⟨metrics.commands + 1, metrics.loops + 1, max metrics.nesting (entry.1 + 1)⟩
  else ⟨metrics.commands + 1, metrics.loops, metrics.nesting⟩

/-- How deep loops get that stand under a number of others; no loops get nowhere. -/
def deepened (depth : Nat) : Nat → Nat
  | 0 => 0
  | nesting + 1 => nesting + 1 + depth

def sink (depth : Nat) (metrics : Metrics) : Metrics :=
  ⟨metrics.commands, metrics.loops, deepened depth metrics.nesting⟩

theorem append_assoc (a b c : Metrics) : (a.append b).append c = a.append (b.append c) := by
  simp only [append, Nat.add_assoc, Nat.max_assoc]

@[simp] theorem zero_append (metrics : Metrics) : zero.append metrics = metrics := by
  simp only [append, zero, Nat.zero_add, Nat.zero_max]

@[simp] theorem append_zero (metrics : Metrics) : metrics.append zero = metrics := by
  simp only [append, zero, Nat.add_zero, Nat.max_zero]

theorem deepened_max (depth a b : Nat) :
    deepened depth (max a b) = max (deepened depth a) (deepened depth b) := by
  cases a with
  | zero => rw [deepened, Nat.zero_max, Nat.zero_max]
  | succ a =>
      cases b with
      | zero => rw [deepened, deepened, Nat.max_zero, Nat.max_zero, deepened]
      | succ b =>
          rw [Nat.succ_max_succ, deepened, deepened, deepened]
          omega

@[simp] theorem sink_zero (metrics : Metrics) : metrics.sink 0 = metrics := by
  obtain ⟨commands, loops, _ | nesting⟩ := metrics <;> rfl

theorem sink_append (depth : Nat) (a b : Metrics) :
    (a.append b).sink depth = (a.sink depth).append (b.sink depth) := by
  rw [sink, sink, sink, append, append, deepened_max]

/-- A loop is counted before its block, which stands one level deeper. -/
theorem count_loop_append (metrics block : Metrics) (depth : Nat) (how : Loop) :
    (metrics.count (depth, .loop how)).append (block.sink (depth + 1)) =
      metrics.append (block.enclose.sink depth) := by
  have greatest : max (max metrics.nesting (depth + 1)) (deepened (depth + 1) block.nesting) =
      max metrics.nesting (deepened depth (block.nesting + 1)) := by
    cases block.nesting with
    | zero =>
        rw [deepened, deepened]
        omega
    | succ nesting =>
        rw [deepened, deepened]
        omega
  simp only [count, Header.isLoop, if_true, sink, enclose, append, greatest, mk.injEq, and_true]
  omega

mutual

theorem foldl_listing (command : Command) (depth : Nat) (metrics : Metrics) :
    (command.listing depth).foldl count metrics =
      metrics.append ((ofCommand command).sink depth) := by
  match command with
  | .act action => simp [Command.listing, ofCommand, count, Header.isLoop, append, sink, deepened]
  | .loop how body =>
      rw [Command.listing, List.foldl_cons, foldl_blockListing body, count_loop_append]
      rfl

/-- Counting the headers of a block adds the metrics of the block to what was counted before. -/
theorem foldl_blockListing (block : List Command) (depth : Nat) (metrics : Metrics) :
    (blockListing depth block).foldl count metrics =
      metrics.append ((ofProgram block).sink depth) := by
  match block with
  | [] => exact (append_zero metrics).symm
  | command :: rest =>
      rw [blockListing, List.foldl_append, foldl_listing command, foldl_blockListing rest,
        append_assoc, ← sink_append]
      rfl

end

theorem foldl_count_listing (program : Program) :
    program.listing.foldl count zero = ofProgram program := by
  rw [Program.listing, foldl_blockListing, sink_zero, zero_append]

theorem getD_max?_cons (depth : Nat) (depths : List Nat) :
    (depth :: depths).max?.getD 0 = max depth (depths.max?.getD 0) := by
  rw [List.max?_cons]
  cases depths.max? <;> simp

theorem ofLines_cons (line : Line) (lines : List Line) :
    ofLines (line :: lines) = (ofLines [line]).append (ofLines lines) := by
  cases starts : line.startsLoop with
  | false => simp [ofLines, append, starts, Nat.add_comm]
  | true =>
      simp only [ofLines, append, starts, List.filter_cons_of_pos, List.map_cons, getD_max?_cons,
        List.countP_cons_of_pos, List.length_cons, mk.injEq]
      simp [Nat.add_comm]

/-- A line is counted as the header that it says. -/
theorem count_of_says {line : Line} {entry : Nat × Header} (told : line.Says entry)
    (metrics : Metrics) : metrics.count entry = metrics.append (ofLines [line]) := by
  have starts := Line.startsLoop_of_read told.2
  have depth : line.indent / Program.indentWidth = entry.1 :=
    Nat.div_eq_of_eq_mul_right (show 0 < Program.indentWidth by decide) told.1
  cases loop : entry.2.isLoop with
  | false => simp [count, ofLines, append, starts, loop]
  | true => simp [count, ofLines, append, starts, loop, depth]

theorem foldl_count_of_says {lines : List Line} {entries : List (Nat × Header)}
    (told : lines.Forall₂ Line.Says entries) (metrics : Metrics) :
    entries.foldl count metrics = metrics.append (ofLines lines) := by
  induction told generalizing metrics with
  | nil => exact (append_zero metrics).symm
  | cons first rest ih =>
      rw [List.foldl_cons, ih, count_of_says first, append_assoc, ← ofLines_cons]

theorem ofProgram_of_says {lines : List Line} {program : Program}
    (told : lines.Forall₂ Line.Says program.listing) : ofProgram program = ofLines lines := by
  rw [← foldl_count_listing, foldl_count_of_says told, zero_append]

/-- The metrics of a program are those that the lines of any text show that is read as this program,
and also the lines that it is printed with. Counts add up over programs that follow one another and
nesting is the greater of the two. A loop is one more of everything than its block, however often it
runs it. -/
theorem metrics_show_in_text (tabWidth : Nat) :
    (∀ source program, Program.parseWith tabWidth source = .ok program →
      ofProgram program = ofLines (Line.ofSource tabWidth source)) ∧
    (∀ program : Program,
      ofProgram program = ofLines (Line.ofSource tabWidth (Program.source program))) ∧
    (∀ a b, ofProgram (a ++ b) =
      ⟨(ofProgram a).commands + (ofProgram b).commands, (ofProgram a).loops + (ofProgram b).loops,
        max (ofProgram a).nesting (ofProgram b).nesting⟩) ∧
    ∀ how body, ofProgram [.loop how body] =
      ⟨(ofProgram body).commands + 1, (ofProgram body).loops + 1,
        (ofProgram body).nesting + 1⟩ := by
  refine ⟨?_, ?_, ofProgram_append, ?_⟩
  · intro source program passed
    exact ofProgram_of_says (Reading.says_of_result passed)
  · intro program
    rw [Program.ofSource_source]
    exact ofProgram_of_says (Line.forall₂_says_printed 1 _)
  · intro how body
    rw [ofProgram, ofCommand]
    exact append_zero _

/-- Five lines, three of them loops; the second loop is the deepest, though another one follows. -/
theorem metrics_of_spaced_text :
    let source := "\nrepeat 100\n\tMove 1\n\n\tREPEATUNTIL WallAhead\n\t\tTurn left\nRepeat 0"
    let program : Program := [.loop (.counted 100) [.act (.move 1),
      .loop (.guarded .wallAhead) [.act (.turn .left)]], .loop (.counted 0) []]
    Program.parseWith 4 source = .ok program ∧ ofProgram program = ⟨5, 3, 2⟩ ∧
      ofLines (Line.ofSource 4 source) = ⟨5, 3, 2⟩ := by
  intro source program
  have passed : Program.parseWith 4 source = .ok program := by decide +kernel
  have counted : ofProgram program = ⟨5, 3, 2⟩ := by decide
  exact ⟨passed, counted, ((metrics_show_in_text 4).1 source program passed).symm.trans counted⟩

end Metrics
end Boardwalk
