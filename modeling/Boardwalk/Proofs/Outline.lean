import Boardwalk.Proofs.Indentation
import Mathlib.Data.List.Forall2

/-!
# Blocks find the first fault and lose nothing

Reading lines into an outline agrees with the scan that looks back by one line. The
invariant has two parts: the number of open blocks is what the last line leaves room
for, and the headers in the outline, in reading order, are what the lines say.
-/
namespace Boardwalk

/-- Whether a line says a header and stands at its depth. -/
def Line.Says (line : Line) (entry : Nat × Header) : Prop :=
  line.indent = Program.indentWidth * entry.1 ∧ Statement.read line.content = .ok entry.2

namespace Outline

/-- The headers of the open loops and of what stands before them, in reading order. -/
def framesListing : List Frame → List (Nat × Header)
  | [] => []
  | frame :: frames =>
    framesListing frames ++ blockListing frames.length frame.before.reverse ++
      [(frames.length, .loop frame.how)]

def listing (outline : Outline) : List (Nat × Header) :=
  framesListing outline.frames ++ blockListing outline.depth outline.block.reverse

theorem depth_closeTo (indent : Nat) (frames : List Frame) (block : List Command)
    (notices : List Notice) :
    (closeTo indent frames block notices).depth =
      min frames.length (indent / Program.indentWidth) := by
  induction frames generalizing block notices with
  | nil => simp [closeTo, depth]
  | cons frame frames ih =>
      rw [closeTo]
      split
      case isTrue left =>
        rw [ih, List.length_cons]
        simp only [Program.indentWidth] at left ⊢
        omega
      case isFalse right =>
        simp only [depth, List.length_cons, Program.indentWidth] at right ⊢
        omega

theorem listing_closeTo (indent : Nat) (frames : List Frame) (block : List Command)
    (notices : List Notice) :
    (closeTo indent frames block notices).listing =
      framesListing frames ++ blockListing frames.length block.reverse := by
  induction frames generalizing block notices with
  | nil => rfl
  | cons frame frames ih =>
      rw [closeTo]
      split
      case isTrue =>
        -- The loop goes from the frames to the end of the block around it, one level further out.
        rw [ih, List.reverse_cons, blockListing_append]
        simp [framesListing, blockListing, Command.listing]
      case isFalse => rfl

@[simp] theorem listing_dedent (outline : Outline) (indent : Nat) :
    (outline.dedent indent).listing = outline.listing :=
  listing_closeTo indent outline.frames outline.block outline.notices

theorem depth_dedent (outline : Outline) (indent : Nat) :
    (outline.dedent indent).depth = min outline.depth (indent / Program.indentWidth) :=
  depth_closeTo indent outline.frames outline.block outline.notices

/-- When all blocks are closed, what is left is a program with the same listing. -/
theorem listing_program_close (outline : Outline) :
    outline.close.program.listing = outline.listing := by
  have flat : outline.close.depth = 0 := by
    rw [close, depth_dedent, Nat.zero_div, Nat.min_zero]
  have kept : outline.close.listing = outline.listing := listing_dedent outline 0
  rw [← kept, listing, flat, List.eq_nil_of_length_eq_zero flat]
  rfl

/-- A line stands at the innermost block, once blocks are closed, exactly if it fits. -/
theorem indent_eq_depth_dedent_iff {outline : Outline} {previous : Option Line}
    (h : Program.indentWidth * outline.depth = Line.room previous) (line : Line) :
    line.indent = Program.indentWidth * (outline.dedent line.indent).depth ↔
      line.Fits previous := by
  rw [depth_dedent, Line.Fits, ← h]
  simp only [Program.indentWidth]
  omega

theorem place_of_read_ok (outline : Outline) {line : Line} {header : Header}
    (read : Statement.read line.content = .ok header) :
    ∃ next, outline.place line = (next, none) ∧
      next.depth = outline.depth + (if header.isLoop then 1 else 0) ∧
        next.listing = outline.listing ++ [(outline.depth, header)] := by
  cases header with
  | act action =>
      refine ⟨outline.act action, by rw [place, read], rfl, ?_⟩
      simp [listing, act, depth, blockListing, Command.listing]
  | loop how =>
      refine ⟨outline.enter line how, by rw [place, read], rfl, ?_⟩
      simp [listing, enter, depth, framesListing]

/-- What holds of an outline after it took some lines. -/
structure Holds (outline : Outline) (lines : List Line) : Prop where
  room : Program.indentWidth * outline.depth = Line.room lines.getLast?
  entries : lines.Forall₂ Line.Says outline.listing

theorem holds_start : start.Holds [] := ⟨rfl, .nil⟩

theorem Holds.add_error {outline : Outline} {lines : List Line} {line : Line} {error : ParseError}
    (h : outline.Holds lines) (fault : line.fault? lines.getLast? = some error) :
    (outline.add line).2 = some error := by
  have stands := indent_eq_depth_dedent_iff h.room line
  rcases Line.fault?_eq_some_iff.mp fault with ⟨misfit, rfl⟩ | ⟨fits, mistake, read, rfl⟩
  · rw [add, if_neg fun equal => misfit (stands.mp equal)]
  · rw [add, if_pos (stands.mpr fits), place, read]

/-- A line without a fault is added, and the outline holds one line more. -/
theorem Holds.add {outline : Outline} {lines : List Line} {line : Line}
    (h : outline.Holds lines) (sound : line.fault? lines.getLast? = none) :
    ∃ next, outline.add line = (next, none) ∧ next.Holds (lines ++ [line]) := by
  obtain ⟨fits, header, read⟩ := Line.fault?_eq_none_iff.mp sound
  have stands := (indent_eq_depth_dedent_iff h.room line).mpr fits
  obtain ⟨next, placed, deeper, longer⟩ := (outline.dedent line.indent).place_of_read_ok read
  refine ⟨next, ?_, ?_, ?_⟩
  · rw [Outline.add, if_pos stands, placed]
  · have opens : line.opens = header.isLoop := by rw [Line.opens, read]
    rw [List.getLast?_concat, Line.room, opens, deeper, Nat.mul_add, ← stands]
    cases header.isLoop <;> rfl
  · rw [longer, listing_dedent]
    exact List.rel_append h.entries (.cons ⟨stands, read⟩ .nil)

theorem Holds.addAll_error {outline : Outline} {lines more : List Line} {error : ParseError}
    (h : outline.Holds lines) (fault : Line.firstFault? lines.getLast? more = some error) :
    (outline.addAll more).2 = some error := by
  induction more generalizing outline lines with
  | nil => cases fault
  | cons line more ih =>
      cases first : line.fault? lines.getLast? with
      | some found =>
          rw [Line.firstFault?, first] at fault
          have stopped := h.add_error (first.trans fault)
          rw [addAll]
          split
          case h_1 next passed => rw [passed] at stopped; cases stopped
          case h_2 next other found => rw [found] at stopped; exact stopped
      | none =>
          rw [Line.firstFault?, first, Option.none_or] at fault
          obtain ⟨next, added, holds⟩ := h.add first
          rw [addAll, added]
          apply ih holds
          rw [List.getLast?_concat]
          exact fault

theorem Holds.addAll {outline : Outline} {lines more : List Line}
    (h : outline.Holds lines) (sound : Line.firstFault? lines.getLast? more = none) :
    ∃ next, outline.addAll more = (next, none) ∧ next.Holds (lines ++ more) := by
  induction more generalizing outline lines with
  | nil =>
      refine ⟨outline, rfl, ?_⟩
      rw [List.append_nil]
      exact h
  | cons line more ih =>
      rw [Line.firstFault?, Option.or_eq_none_iff] at sound
      obtain ⟨next, added, holds⟩ := h.add sound.1
      rw [Outline.addAll, added, List.append_cons]
      apply ih holds
      rw [List.getLast?_concat]
      exact sound.2

end Outline

namespace Reading

theorem result_of_fault {lines : List Line} {error : ParseError}
    (h : Line.firstFault? none lines = some error) : (ofLines lines).result = .error error := by
  have stopped := Outline.holds_start.addAll_error h
  rw [ofLines]
  split
  case h_1 outline found equal =>
    rw [equal] at stopped
    cases stopped
    rfl
  case h_2 outline equal =>
    rw [equal] at stopped
    cases stopped

/-- Lines without a fault give a program that has one header for each line, in order. -/
theorem result_of_no_fault {lines : List Line} (h : Line.firstFault? none lines = none) :
    ∃ program, (ofLines lines).result = .ok program ∧
      lines.Forall₂ Line.Says program.listing := by
  obtain ⟨outline, added, holds⟩ := Outline.holds_start.addAll h
  refine ⟨outline.close.program, by rw [ofLines, added], ?_⟩
  rw [Outline.listing_program_close]
  exact holds.entries

theorem result_eq_error_iff {lines : List Line} {error : ParseError} :
    (ofLines lines).result = .error error ↔ Line.firstFault? none lines = some error := by
  constructor
  · intro failed
    cases fault : Line.firstFault? none lines with
    | none =>
        obtain ⟨program, passed, -⟩ := result_of_no_fault fault
        cases passed.symm.trans failed
    | some found =>
        cases (result_of_fault fault).symm.trans failed
        rfl
  · exact result_of_fault

theorem exists_result_iff {lines : List Line} :
    (∃ program, (ofLines lines).result = .ok program) ↔ Line.firstFault? none lines = none := by
  constructor
  · rintro ⟨program, passed⟩
    cases fault : Line.firstFault? none lines with
    | none => rfl
    | some error => cases (result_of_fault fault).symm.trans passed
  · intro sound
    obtain ⟨program, passed, -⟩ := result_of_no_fault sound
    exact ⟨program, passed⟩

theorem says_of_result {lines : List Line} {program : Program}
    (passed : (ofLines lines).result = .ok program) : lines.Forall₂ Line.Says program.listing := by
  obtain ⟨found, result, entries⟩ := result_of_no_fault (exists_result_iff.mp ⟨program, passed⟩)
  cases result.symm.trans passed
  exact entries

end Reading
end Boardwalk
