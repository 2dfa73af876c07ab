import Boardwalk.Proofs.Listing
import Boardwalk.Proofs.Outline
import Boardwalk.Proofs.Printed
import Mathlib.Order.Bounds.Basic

/-!
# Reading programs

Printed programs are read back, the texts that can be read are those whose
indentation is in order, and a text that cannot be read is refused for its first
fault. All three rest on the scan for faults: a listing never has one, an outline
finds the same ones, and nothing behind the first one is looked at.
-/
namespace Boardwalk

theorem Line.says_rightUnique : Relator.RightUnique Line.Says := by
  intro line a b ha hb
  apply Prod.ext
  · exact Nat.eq_of_mul_eq_mul_left (by decide) (ha.1.symm.trans hb.1)
  · exact Except.ok.inj (ha.2.symm.trans hb.2)

theorem Line.forall₂_says_printed (first : Nat) (entries : List (Nat × Header)) :
    ((entries.zipIdx first).map Line.printed).Forall₂ Line.Says entries := by
  induction entries generalizing first with
  | nil => exact .nil
  | cons entry entries ih =>
      exact .cons ⟨Line.indent_printed _, Line.read_content_printed _⟩ (ih (first + 1))

/-- The printed lines of entries that are nested have no fault. -/
theorem Line.firstFault?_printed {previous : Option Line} {room first : Nat}
    {entries : List (Nat × Header)} (nested : Nested room entries)
    (h : Program.indentWidth * room = Line.room previous) :
    Line.firstFault? previous ((entries.zipIdx first).map Line.printed) = none := by
  induction entries generalizing previous room first with
  | nil => rfl
  | cons entry entries ih =>
      have read := Line.read_content_printed (entry, first)
      have fits : (Line.printed (entry, first)).Fits previous := by
        rw [Line.Fits, Line.indent_printed, ← h]
        exact ⟨Nat.dvd_mul_right _ _, Nat.mul_le_mul_left _ nested.1⟩
      have sound := Line.fault?_eq_none_iff.mpr ⟨fits, entry.2, read⟩
      rw [List.zipIdx_cons, List.map_cons, Line.firstFault?, sound, Option.none_or]
      apply ih nested.2
      have opens : (Line.printed (entry, first)).opens = entry.2.isLoop := by rw [Line.opens, read]
      rw [Line.room, Line.indent_printed, opens, Nat.mul_add]
      cases entry.2.isLoop <;> rfl

/-- A text whose lines are the printed lines of a program is read as this program. -/
theorem Program.parseWith_of_printed {tabWidth : Nat} {text : String} {program : Program}
    (h : Line.ofSource tabWidth text =
      (program.listing.zipIdx 1).map Line.printed) :
    parseWith tabWidth text = .ok program := by
  have sound : Line.firstFault? none
      ((program.listing.zipIdx 1).map Line.printed) = none :=
    Line.firstFault?_printed program.nested_listing rfl
  rw [← h] at sound
  obtain ⟨found, passed, entries⟩ := Reading.result_of_no_fault sound
  have printed := Line.forall₂_says_printed 1 program.listing
  rw [← h] at printed
  -- The program that was found lists the same headers, and a listing belongs to one program only.
  have same := List.right_unique_forall₂' Line.says_rightUnique entries printed
  rw [parseWith, Reading.ofSource, passed, Program.listing_injective same]

/-- Printing a program and reading the text gives the program back, whatever a tab stands for. -/
theorem Program.parseWith_source (tabWidth : Nat) (program : Program) :
    parseWith tabWidth program.source = .ok program :=
  parseWith_of_printed (ofSource_source tabWidth program)

theorem Line.map_indent_eq {lines : List Line} {entries : List (Nat × Header)}
    (h : lines.Forall₂ Line.Says entries) :
    lines.map Line.indent = entries.map fun entry => Program.indentWidth * entry.1 := by
  induction h with
  | nil => rfl
  | cons told rest ih => rw [List.map_cons, List.map_cons, told.1, ih]

theorem Line.indent_number_printed (first : Nat) (entries : List (Nat × Header)) :
    ((entries.zipIdx first).map Line.printed).map (fun line => (line.indent, line.number)) =
      (entries.map fun entry => Program.indentWidth * entry.1).zipIdx first := by
  rw [← List.map_zipIdx, List.map_map]
  apply List.map_congr_left
  intro numbered _
  exact Prod.ext (Line.indent_printed numbered) (Line.number_printed numbered)

/-- A text is read exactly if every line can be read and none starts further right than the line
before it allows. What it is read as has a header for every line, in order and at its depth, and
is printed with as many lines, which start at the same places. -/
theorem Program.parseWith_accepts_indented (tabWidth : Nat) (source : String) :
    let lines := Line.ofSource tabWidth source
    ((∃ program, parseWith tabWidth source = .ok program) ↔
      (∀ line ∈ lines, ∃ header, Statement.read line.content = .ok header) ∧
        (∀ line ∈ lines.head?, line.indent = 0) ∧
          lines.IsChain fun previous line => indentWidth ∣ line.indent ∧
            line.indent ≤ previous.indent + if previous.opens then indentWidth else 0) ∧
    ∀ program, parseWith tabWidth source = .ok program →
      lines.Forall₂ (fun line entry =>
        line.indent / indentWidth = entry.1 ∧ Statement.read line.content = .ok entry.2)
        program.listing ∧
      ∀ width, (Line.ofSource width program.source).map (fun line => (line.indent, line.number)) =
        (lines.map Line.indent).zipIdx 1 := by
  intro lines
  refine ⟨?_, ?_⟩
  · have accepted : (∃ program, parseWith tabWidth source = .ok program) ↔
        Line.firstFault? none lines = none := Reading.exists_result_iff
    rw [accepted, Line.firstFault?_eq_none_iff]
    simp only [Line.fits_none_iff]
    rfl
  · intro program passed
    have entries : lines.Forall₂ Line.Says program.listing := Reading.says_of_result passed
    refine ⟨entries.imp ?_, ?_⟩
    · intro line entry told
      exact ⟨Nat.div_eq_of_eq_mul_right (show 0 < indentWidth by decide) told.1, told.2⟩
    · intro width
      rw [ofSource_source, Line.indent_number_printed, Line.map_indent_eq entries]

/-- A text that cannot be read is refused for its first faulty line, and for nothing else. A line
that starts at the wrong place is refused for that, whatever it says. The lines before it can be
read alone, and no other lines behind it change the error. -/
theorem Program.parseWith_error_first_fault (tabWidth : Nat) (source : String) (error : ParseError)
    (failed : parseWith tabWidth source = .error error) :
    let lines := Line.ofSource tabWidth source
    ∃ k line, lines[k]? = some line ∧
      IsLeast {j | Line.MisplacedAt lines j ∨ Line.UnreadableAt lines j} k ∧
      (Line.MisplacedAt lines k → error = ⟨line.number, .indentation line.text⟩) ∧
      (¬ Line.MisplacedAt lines k →
        ∃ mistake, Statement.read line.content = .error mistake ∧ error = ⟨line.number, mistake⟩) ∧
      error.line = line.number ∧
      (∃ program, (Reading.ofLines (lines.take k)).result = .ok program) ∧
      ∀ others, (Reading.ofLines (lines.take (k + 1) ++ others)).result = .error error := by
  intro lines
  have fault : Line.firstFault? none lines = some error := Reading.result_eq_error_iff.mp failed
  obtain ⟨before, line, after, split, clean, found⟩ := Line.exists_of_firstFault? fault
  rw [Option.or_none] at found
  have at_k : lines[before.length]? = some line := by simp [split]
  have upTo : lines.take before.length = before := by simp [split]
  refine ⟨before.length, line, at_k, ⟨?_, ?_⟩, ?_, ?_, Line.line_of_fault? found, ?_, ?_⟩
  · exact Line.faulty_of_fault? at_k (upTo.symm ▸ found)
  · intro j faulty
    refine Nat.le_of_not_lt fun inside => ?_
    rw [split] at faulty
    exact Line.not_faulty_of_firstFault? clean (Line.faulty_of_append inside faulty)
  · rintro ⟨other, at_other, misfit⟩
    cases at_other.symm.trans at_k
    rw [upTo] at misfit
    rcases Line.fault?_eq_some_iff.mp found with ⟨-, same⟩ | ⟨fits, -⟩
    · exact same
    · exact absurd fits misfit
  · intro placed
    rcases Line.fault?_eq_some_iff.mp found with ⟨misfit, -⟩ | ⟨-, unread⟩
    · exact absurd ⟨line, at_k, upTo.symm ▸ misfit⟩ placed
    · exact unread
  · rw [upTo]
    exact Reading.exists_result_iff.mpr clean
  · intro others
    have longer : lines.take (before.length + 1) = before ++ [line] := by
      rw [split, List.take_length_add_append]
      rfl
    rw [longer, List.append_assoc]
    apply Reading.result_of_fault
    rw [Line.firstFault?_append, clean, Option.none_or, Option.or_none, List.singleton_append,
      Line.firstFault?, found, Option.some_or]

/-- A line between two levels is refused for its place, though nothing in it could be read either. -/
theorem Program.partial_dedent_refused :
    parseWith 4 "Repeat 2\n    Move 1\n  Fly\nTurn" = .error ⟨3, .indentation "  Fly"⟩ ∧
      ∃ k line, (Line.ofSource 4 "Repeat 2\n    Move 1\n  Fly\nTurn")[k]? = some line ∧
        line.number = 3 ∧ ∃ program, (Reading.ofLines
          ((Line.ofSource 4 "Repeat 2\n    Move 1\n  Fly\nTurn").take k)).result = .ok program := by
  have failed : parseWith 4 "Repeat 2\n    Move 1\n  Fly\nTurn" =
      .error ⟨3, .indentation "  Fly"⟩ := rfl
  obtain ⟨k, line, at_k, -, -, -, number, before, -⟩ := parseWith_error_first_fault 4 _ _ failed
  exact ⟨failed, k, line, at_k, number.symm, before⟩

end Boardwalk
