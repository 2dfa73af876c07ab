import Boardwalk.Source.Outline
import Mathlib.Data.List.Chain

/-!
# Faults seen line by line

Where a line may start depends on the line before it and on nothing else. So the
first fault of a list of lines is found by a scan that looks back by one line and
builds no blocks. This file defines the scan and says in which lists it finds what;
that reading blocks finds the same faults is not claimed here.
-/
namespace Boardwalk
namespace Line

def opens (line : Line) : Bool :=
  match Statement.read line.content with
  | .ok header => header.isLoop
  | .error _ => false

/-- How far right a line may start behind another one; the first line has none before it. -/
def room : Option Line → Nat
  | none => 0
  | some line => line.indent + if line.opens then Program.indentWidth else 0

/-- Whether a line starts where a command may stand, given the line before it. -/
def Fits (previous : Option Line) (line : Line) : Prop :=
  Program.indentWidth ∣ line.indent ∧ line.indent ≤ room previous

instance (previous : Option Line) (line : Line) : Decidable (Fits previous line) :=
  inferInstanceAs (Decidable (_ ∧ _))

/-- What is wrong with a line behind another one. Its place counts before its content. -/
def fault? (previous : Option Line) (line : Line) : Option ParseError :=
  if Fits previous line then
    match Statement.read line.content with
    | .ok _ => none
    | .error mistake => some ⟨line.number, mistake⟩
  else some ⟨line.number, .indentation line.text⟩

def firstFault? (previous : Option Line) : List Line → Option ParseError
  | [] => none
  | line :: lines => (fault? previous line).or (firstFault? (some line) lines)

theorem fits_none_iff {line : Line} : Fits none line ↔ line.indent = 0 := by
  constructor
  · intro h
    exact Nat.le_zero.mp h.2
  · intro h
    exact ⟨h ▸ Nat.dvd_zero _, Nat.le_of_eq h⟩

theorem fault?_eq_none_iff {previous : Option Line} {line : Line} :
    fault? previous line = none ↔
      Fits previous line ∧ ∃ header, Statement.read line.content = .ok header := by
  rw [fault?]
  split
  case isTrue fits =>
    cases read : Statement.read line.content with
    | ok header => simp [fits]
    | error mistake => simp
  case isFalse misfit => simp [misfit]

theorem fault?_eq_some_iff {previous : Option Line} {line : Line} {error : ParseError} :
    fault? previous line = some error ↔
      (¬ Fits previous line ∧ error = ⟨line.number, .indentation line.text⟩) ∨
        (Fits previous line ∧
          ∃ mistake, Statement.read line.content = .error mistake ∧ error = ⟨line.number, mistake⟩) := by
  rw [fault?]
  split
  case isTrue fits =>
    cases read : Statement.read line.content with
    | ok header => simp [fits]
    | error mistake => simp [fits, eq_comm]
  case isFalse misfit => simp [misfit, eq_comm]

theorem line_of_fault? {previous : Option Line} {line : Line} {error : ParseError}
    (h : fault? previous line = some error) : error.line = line.number := by
  rcases fault?_eq_some_iff.mp h with ⟨-, rfl⟩ | ⟨-, mistake, -, rfl⟩
  · rfl
  · rfl

theorem getLast?_cons_or (previous : Option Line) (line : Line) (lines : List Line) :
    (line :: lines).getLast?.or previous = lines.getLast?.or (some line) := by
  rw [List.getLast?_cons]
  cases lines.getLast? <;> rfl

theorem firstFault?_append (previous : Option Line) (a b : List Line) :
    firstFault? previous (a ++ b) =
      (firstFault? previous a).or (firstFault? (a.getLast?.or previous) b) := by
  induction a generalizing previous with
  | nil => rfl
  | cons line a ih =>
      rw [List.cons_append, firstFault?, firstFault?, ih, Option.or_assoc, getLast?_cons_or]

/-- Lines without a fault are those that can be read and fit behind one another. -/
theorem firstFault?_eq_none_iff {previous : Option Line} {lines : List Line} :
    firstFault? previous lines = none ↔
      (∀ line ∈ lines, ∃ header, Statement.read line.content = .ok header) ∧
        (∀ line ∈ lines.head?, Fits previous line) ∧
          lines.IsChain fun before line => Fits (some before) line := by
  induction lines generalizing previous with
  | nil => simp [firstFault?]
  | cons line lines ih =>
      rw [firstFault?, Option.or_eq_none_iff, fault?_eq_none_iff, ih, List.isChain_cons]
      constructor
      · rintro ⟨⟨fits, readable⟩, others, next, chain⟩
        refine ⟨?_, ?_, next, chain⟩
        · intro other member
          rcases List.mem_cons.mp member with rfl | later
          · exact readable
          · exact others other later
        · intro first member
          cases member
          exact fits
      · rintro ⟨readable, fits, next, chain⟩
        refine ⟨⟨fits line rfl, readable line List.mem_cons_self⟩, ?_, next, chain⟩
        intro other member
        exact readable other (List.mem_cons_of_mem line member)

/-- In lines without a fault, no line has a fault behind the line before it. -/
theorem fault?_eq_none_of_getElem? {previous : Option Line} {lines : List Line}
    (h : firstFault? previous lines = none) {k : Nat} {line : Line} (at_k : lines[k]? = some line) :
    fault? ((lines.take k).getLast?.or previous) line = none := by
  have cut : lines = lines.take k ++ line :: lines.drop (k + 1) := by
    obtain ⟨bound, rfl⟩ := List.getElem?_eq_some_iff.mp at_k
    rw [← List.drop_eq_getElem_cons bound, List.take_append_drop]
  rw [cut, firstFault?_append, Option.or_eq_none_iff, firstFault?, Option.or_eq_none_iff] at h
  exact h.2.1

/-- The first fault is that of some line, and the lines before it have none. -/
theorem exists_of_firstFault? {previous : Option Line} {lines : List Line} {error : ParseError}
    (h : firstFault? previous lines = some error) :
    ∃ before line after, lines = before ++ line :: after ∧ firstFault? previous before = none ∧
      fault? (before.getLast?.or previous) line = some error := by
  induction lines generalizing previous with
  | nil => cases h
  | cons line lines ih =>
      cases first : fault? previous line with
      | some found =>
          rw [firstFault?, first] at h
          exact ⟨[], line, lines, rfl, rfl, first.trans h⟩
      | none =>
          rw [firstFault?, first, Option.none_or] at h
          obtain ⟨before, faulty, after, rfl, clean, found⟩ := ih h
          refine ⟨line :: before, faulty, after, rfl, ?_, ?_⟩
          · rw [firstFault?, first, Option.none_or]
            exact clean
          · rw [getLast?_cons_or]
            exact found

/-- Whether the line at a place starts where no command may stand, given the lines before it. -/
def MisplacedAt (lines : List Line) (k : Nat) : Prop :=
  ∃ line, lines[k]? = some line ∧ ¬ line.Fits (lines.take k).getLast?

def UnreadableAt (lines : List Line) (k : Nat) : Prop :=
  ∃ line mistake, lines[k]? = some line ∧ Statement.read line.content = .error mistake

theorem fault?_ne_none_of_faulty {lines : List Line} {k : Nat}
    (h : MisplacedAt lines k ∨ UnreadableAt lines k) :
    ∃ line, lines[k]? = some line ∧ fault? (lines.take k).getLast? line ≠ none := by
  rcases h with ⟨line, at_k, misfit⟩ | ⟨line, mistake, at_k, failed⟩
  · refine ⟨line, at_k, ?_⟩
    intro sound
    exact misfit (fault?_eq_none_iff.mp sound).1
  · refine ⟨line, at_k, ?_⟩
    intro sound
    obtain ⟨-, header, read⟩ := fault?_eq_none_iff.mp sound
    cases read.symm.trans failed

theorem faulty_of_fault? {lines : List Line} {k : Nat} {line : Line} {error : ParseError}
    (at_k : lines[k]? = some line) (fault : fault? (lines.take k).getLast? line = some error) :
    MisplacedAt lines k ∨ UnreadableAt lines k := by
  rcases fault?_eq_some_iff.mp fault with ⟨misfit, -⟩ | ⟨-, mistake, read, -⟩
  · exact .inl ⟨line, at_k, misfit⟩
  · exact .inr ⟨line, mistake, at_k, read⟩

/-- Whether a place is faulty does not depend on the lines behind it. -/
theorem faulty_of_append {before after : List Line} {k : Nat} (inside : k < before.length)
    (h : MisplacedAt (before ++ after) k ∨ UnreadableAt (before ++ after) k) :
    MisplacedAt before k ∨ UnreadableAt before k := by
  rw [MisplacedAt, UnreadableAt, List.getElem?_append_left inside,
    List.take_append_of_le_length (Nat.le_of_lt inside)] at h
  exact h

/-- In lines without a fault, no place is faulty. -/
theorem not_faulty_of_firstFault? {lines : List Line} (h : firstFault? none lines = none) {k : Nat} :
    ¬ (MisplacedAt lines k ∨ UnreadableAt lines k) := by
  intro faulty
  obtain ⟨line, at_k, fault⟩ := fault?_ne_none_of_faulty faulty
  have sound := fault?_eq_none_of_getElem? h at_k
  rw [Option.or_none] at sound
  exact fault sound

end Line
end Boardwalk
