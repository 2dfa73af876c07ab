import Boardwalk.Proofs.Numbering
import Boardwalk.Proofs.Text

/-!
# Blank lines

Lines that are blank leave nothing for reading but a gap in the numbers. So a text into
which such lines are put, wherever that is, reads as it did before, and what is said
about a line of it names the new number of that line: the old one and as many more as
lines were put in front.
-/
namespace Boardwalk

/-- A line of a text to which lines were added. -/
inductive Spaced where
  | old (line : List Char)
  | added (line : List Char)

namespace Spaced

def line : Spaced → List Char
  | .old line | .added line => line

def old? : Spaced → Option (List Char)
  | .old line => some line
  | .added _ => none

def olds (lines : List Spaced) : List (List Char) := lines.filterMap old?

/-- How many lines were added in front of an old line, which is given by its number as it was. -/
def addedBefore : List Spaced → Nat → Nat
  | _, 0 => 0
  | [], _ + 1 => 0
  | .added _ :: lines, number + 1 => addedBefore lines (number + 1) + 1
  | .old _ :: lines, number + 1 => addedBefore lines number

/-- The number that an old line has now. -/
def shifted (lines : List Spaced) (number : Nat) : Nat := number + addedBefore lines number

@[simp] theorem shifted_zero (lines : List Spaced) : shifted lines 0 = 0 := by
  cases lines <;> rfl

theorem shifted_added {line : List Char} {lines : List Spaced} {number : Nat} (first : 1 ≤ number) :
    shifted (.added line :: lines) number = shifted lines number + 1 := by
  obtain ⟨number, rfl⟩ := Nat.exists_eq_add_of_le' first
  rfl

theorem shifted_old (line : List Char) (lines : List Spaced) (number : Nat) :
    shifted (.old line :: lines) (number + 1) = shifted lines number + 1 := by
  rw [shifted, addedBefore, Nat.add_right_comm]
  rfl

end Spaced

namespace Text

def inked (first : Nat) (lines : List (List Char)) : List (List Char × Nat) :=
  (lines.zipIdx first).filter fun numbered => !allBlank numbered.1

theorem le_of_mem_inked {first : Nat} {lines : List (List Char)} {numbered : List Char × Nat}
    (member : numbered ∈ inked first lines) : first ≤ numbered.2 :=
  List.le_snd_of_mem_zipIdx (List.mem_of_mem_filter member)

theorem inked_succ (first : Nat) (lines : List (List Char)) :
    inked (first + 1) lines = (inked first lines).map (Prod.map id (· + 1)) := by
  rw [inked, inked, List.zipIdx_succ, List.filter_map]
  rfl

theorem inked_cons_blank (first : Nat) {line : List Char} (blank : allBlank line = true)
    (lines : List (List Char)) :
    inked first (line :: lines) = (inked first lines).map (Prod.map id (· + 1)) := by
  rw [← inked_succ, inked, List.zipIdx_cons, List.filter_cons_of_neg (by simp [blank]), inked]

theorem inked_cons (first : Nat) {line : List Char} (ink : allBlank line = false)
    (lines : List (List Char)) :
    inked first (line :: lines) =
      (line, first) :: (inked first lines).map (Prod.map id (· + 1)) := by
  rw [← inked_succ, inked, List.zipIdx_cons, List.filter_cons_of_pos (by simp [ink]), inked]

end Text

/-- The lines that are not blank are the old ones under new numbers. -/
theorem Spaced.inked_map_line {lines : List Spaced}
    (blank : ∀ line, .added line ∈ lines → Text.allBlank line = true) :
    Text.inked 1 (lines.map line) =
      (Text.inked 1 (olds lines)).map (Prod.map id (shifted lines)) := by
  induction lines with
  | nil => rfl
  | cons first lines ih =>
      have later := ih fun line member => blank line (List.mem_cons_of_mem first member)
      cases first with
      | added text =>
          have olds : olds (.added text :: lines) = olds lines := rfl
          rw [List.map_cons, line, Text.inked_cons_blank 1 (blank text List.mem_cons_self), later,
            olds, List.map_map]
          apply List.map_congr_left
          intro numbered member
          exact Prod.ext rfl (shifted_added (Text.le_of_mem_inked member)).symm
      | old text =>
          have olds : olds (.old text :: lines) = text :: olds lines := rfl
          have moved : Prod.map id (shifted (.old text :: lines)) ∘ Prod.map id (· + 1) =
              (Prod.map id (· + 1) ∘ Prod.map id (shifted lines) :
                List Char × Nat → List Char × Nat) := by
            funext numbered
            exact Prod.ext rfl (shifted_old text lines numbered.2)
          rw [List.map_cons, olds]
          cases ink : Text.allBlank text with
          | true =>
              rw [line, Text.inked_cons_blank 1 ink, Text.inked_cons_blank 1 ink, later,
                List.map_map, List.map_map, moved]
          | false =>
              have one : shifted (.old text :: lines) 1 = 1 := by
                rw [shifted_old, shifted_zero]
              rw [line, Text.inked_cons 1 ink, Text.inked_cons 1 ink, later, List.map_map,
                List.map_cons, List.map_map, moved, Prod.map_apply, one]
              rfl

namespace Text

/-- Without carriage returns lines end at line feeds and nowhere else. -/
theorem splitLines_eq_splitOn {text : List Char} (carriage : '\r' ∉ text) :
    splitLines text = text.splitOn '\n' := by
  induction text with
  | nil => rw [List.splitOn_nil, splitLines]
  | cons c text ih =>
      rw [List.splitOn_cons_eq_if_modifyHead, ← ih (List.not_mem_of_not_mem_cons carriage)]
      by_cases feed : c = '\n'
      · rw [feed, splitLines]
        rfl
      · rw [splitLines_cons feed (List.ne_of_not_mem_cons carriage).symm,
          if_neg (by simpa using feed)]

theorem oneLine_of_mem_splitLines {text : List Char} : ∀ line ∈ splitLines text, OneLine line := by
  fun_induction splitLines text with
  | case1 => simpa using oneLine_nil
  | case2 rest ih => exact List.forall_mem_cons.mpr ⟨oneLine_nil, ih⟩
  | case3 rest _ ih => exact List.forall_mem_cons.mpr ⟨oneLine_nil, ih⟩
  | case4 rest ih => exact List.forall_mem_cons.mpr ⟨oneLine_nil, ih⟩
  | case5 c rest pair carriage feed ih =>
      obtain ⟨first, others, cut⟩ := List.exists_cons_of_ne_nil (splitLines_ne_nil rest)
      rw [cut, List.forall_mem_cons] at ih
      rw [cut, List.modifyHead_cons, List.forall_mem_cons]
      exact ⟨ih.1.cons feed carriage, ih.2⟩

end Text

theorem Line.ofSource_of_spaced (tabWidth : Nat) {source spaced : String} {lines : List Spaced}
    (blank : ∀ line, .added line ∈ lines → Text.allBlank line = true)
    (before : Text.splitLines source.toList = Spaced.olds lines)
    (after : Text.splitLines spaced.toList = lines.map Spaced.line) :
    Line.ofSource tabWidth spaced =
      (Line.ofSource tabWidth source).map (Line.renumber (Spaced.shifted lines)) := by
  have inked := Spaced.inked_map_line blank
  rw [Text.inked, Text.inked] at inked
  rw [Line.ofSource, Line.ofSource, before, after, inked, List.map_map, List.map_map]
  rfl

def Spaced.text (lines : List Spaced) : String :=
  String.ofList (List.intercalate ['\n'] (lines.map line))

theorem Spaced.splitLines_text {lines : List Spaced} (ne : lines ≠ [])
    (oneLine : ∀ text ∈ lines.map line, Text.OneLine text) :
    Text.splitLines (text lines).toList = lines.map line := by
  obtain ⟨first, rest, rfl⟩ := List.exists_cons_of_ne_nil ne
  rw [text, String.toList_ofList]
  exact Text.splitLines_intercalate oneLine

/-- Reading a text with blank lines added says the same under the new numbers. -/
theorem Reading.ofSource_text (tabWidth : Nat) {source : String} {lines : List Spaced}
    (carriage : '\r' ∉ source.toList) (kept : Spaced.olds lines = source.toList.splitOn '\n')
    (blank : ∀ line, .added line ∈ lines → Text.allBlank line = true ∧ Text.OneLine line) :
    Reading.ofSource tabWidth (Spaced.text lines) =
      (Reading.ofSource tabWidth source).renumber (Spaced.shifted lines) := by
  have before : Text.splitLines source.toList = Spaced.olds lines := by
    rw [kept, Text.splitLines_eq_splitOn carriage]
  have ne : lines ≠ [] := by
    rintro rfl
    exact Text.splitLines_ne_nil _ before
  have oneLine : ∀ text ∈ lines.map Spaced.line, Text.OneLine text := by
    rw [List.forall_mem_map]
    intro entry member
    cases entry with
    | added line => exact (blank line member).2
    | old line =>
        apply Text.oneLine_of_mem_splitLines
        rw [before]
        exact List.mem_filterMap.mpr ⟨.old line, member, rfl⟩
  rw [Reading.ofSource, Reading.ofSource, ← Reading.ofLines_renumber,
    Line.ofSource_of_spaced tabWidth (fun line member => (blank line member).1) before
      (Spaced.splitLines_text ne oneLine)]

/-- A text without carriage returns to which blank lines are added, in front, between and behind, is
read as the same program. If it is refused, it was refused before for the same mistake, and the line
of the error is the old one and as many more as lines were added in front of it. The same holds of
the lines that warnings are about. -/
theorem Program.blank_lines_shift_numbers (tabWidth : Nat) (source : String) (lines : List Spaced)
    (carriage : '\r' ∉ source.toList) (kept : Spaced.olds lines = source.toList.splitOn '\n')
    (blank : ∀ line, .added line ∈ lines → Text.allBlank line = true ∧ Text.OneLine line) :
    (∀ program, parseWith tabWidth (Spaced.text lines) = .ok program ↔
      parseWith tabWidth source = .ok program) ∧
    (∀ error, parseWith tabWidth source = .error error →
      parseWith tabWidth (Spaced.text lines) =
        .error ⟨error.line + Spaced.addedBefore lines error.line, error.mistake⟩) ∧
    (Reading.ofSource tabWidth (Spaced.text lines)).notices.filter Notice.isWarning =
      ((Reading.ofSource tabWidth source).notices.filter Notice.isWarning).map
        (Notice.renumber fun number => number + Spaced.addedBefore lines number) := by
  have same := Reading.ofSource_text tabWidth carriage kept blank
  refine ⟨?_, ?_, ?_⟩
  · intro program
    rw [parseWith, parseWith, same, Reading.renumber]
    cases (Reading.ofSource tabWidth source).result <;> simp [Except.mapError]
  · intro error failed
    rw [parseWith] at failed
    rw [parseWith, same, Reading.renumber, failed]
    rfl
  · have warning : Notice.isWarning ∘ Notice.renumber (Spaced.shifted lines) = Notice.isWarning :=
      funext (Notice.isWarning_renumber (Spaced.shifted lines))
    rw [same, Reading.renumber, List.filter_map, warning]
    rfl

/-- Two lines are added in front of the faulty one, one of them in front of the loop before it. -/
theorem Program.spaced_text_refused_later :
    let lines : List Spaced := [.added [], .old "Repeat 0".toList, .added " \t".toList,
      .old "Fly".toList, .added "\u3000".toList]
    Spaced.text lines = "\nRepeat 0\n \t\nFly\n\u3000" ∧
    parseWith 4 "Repeat 0\nFly" = .error ⟨2, .command "Fly"⟩ ∧
    parseWith 4 (Spaced.text lines) = .error ⟨4, .command "Fly"⟩ ∧
    (Reading.ofSource 4 (Spaced.text lines)).notices.filter Notice.isWarning =
      [.neverRuns 2, .emptyBlock "Repeat 0" 2] := by
  intro lines
  have failed : parseWith 4 "Repeat 0\nFly" = .error ⟨2, .command "Fly"⟩ := rfl
  have blank : ∀ line, .added line ∈ lines → Text.allBlank line = true ∧ Text.OneLine line := by
    intro line member
    have which : line ∈ [[], " \t".toList, "\u3000".toList] := by simpa [lines] using member
    rcases List.mem_cons.mp which with rfl | which
    · exact ⟨by decide, by decide, by decide⟩
    · rcases List.mem_pair.mp which with rfl | rfl
      · exact ⟨by decide, by decide, by decide⟩
      · exact ⟨by decide, by decide, by decide⟩
  obtain ⟨-, refused, warnings⟩ := blank_lines_shift_numbers 4 "Repeat 0\nFly" lines (by decide)
    (by decide) blank
  exact ⟨by decide, failed, refused _ failed, warnings⟩

end Boardwalk
