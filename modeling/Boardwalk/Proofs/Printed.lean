import Boardwalk.Command.Listing
import Boardwalk.Proofs.Text
import Boardwalk.Source.Line
import Boardwalk.Source.Statement
import Mathlib.Tactic.SplitIfs

/-!
# Printed lines are read back

Every header is written as its keyword, a space and an argument. Both parts are
solid, which is why the line stays one line, trimming removes exactly its
indentation, and reading it finds the same two parts. A text that is made of
printed lines is therefore cut into these lines whatever a tab stands for.
-/
namespace Boardwalk

namespace Keyword

theorem solid_word (keyword : Keyword) : Text.Solid keyword.word.toList := by
  cases keyword <;> exact Text.solid_of_all rfl

theorem ofLetters?_eq_some_iff {letters : List Char} {keyword : Keyword} :
    ofLetters? letters = some keyword ↔
      Text.sameLetters letters keyword.word.toList = true := by
  constructor
  · intro named
    unfold ofLetters? at named
    split_ifs at named with same same same same
    all_goals
      cases named
      exact same
  · intro same
    rw [← ofLetters?_word keyword]
    simp only [ofLetters?, Text.sameLetters, Text.sameLetters_iff.mp same]
    rfl

/-- An argument that gives a header has the form that the keyword asks for. -/
theorem fits_of_header? {keyword : Keyword} {argument : List Char} {header : Header}
    (h : keyword.header? argument = some header) : keyword.fits argument = true := by
  cases keyword with
  | move =>
      obtain ⟨steps, read, -⟩ := Option.map_eq_some_iff.mp h
      obtain ⟨z, value, -⟩ := Option.bind_eq_some_iff.mp read
      simp only [fits, value, Option.isSome_some]
  | turn =>
      obtain ⟨side, read, -⟩ := Option.map_eq_some_iff.mp h
      simp only [fits, read, Option.isSome_some]
  | counted =>
      obtain ⟨times, read, -⟩ := Option.map_eq_some_iff.mp h
      obtain ⟨n, value, -⟩ := Option.bind_eq_some_iff.mp read
      simp only [fits, value, Option.isSome_some]
  | guarded =>
      obtain ⟨condition, read, -⟩ := Option.map_eq_some_iff.mp h
      simp only [fits, read, Option.isSome_some]

end Keyword

theorem Side.solid_word (side : Side) : Text.Solid side.word.toList := by
  cases side <;> exact Text.solid_of_all rfl

theorem Side.ofLetters?_eq_some_iff {letters : List Char} {side : Side} :
    ofLetters? letters = some side ↔ Text.sameLetters letters side.word.toList = true := by
  constructor
  · intro named
    unfold ofLetters? at named
    split_ifs at named with same same
    all_goals
      cases named
      exact same
  · intro same
    rw [← ofLetters?_word side]
    simp only [ofLetters?, Text.sameLetters, Text.sameLetters_iff.mp same]
    rfl

theorem Condition.solid_word (condition : Condition) : Text.Solid condition.word.toList := by
  cases condition <;> exact Text.solid_of_all rfl

theorem Condition.ofLetters?_eq_some_iff {letters : List Char} {condition : Condition} :
    ofLetters? letters = some condition ↔
      Text.sameLetters letters condition.word.toList = true := by
  constructor
  · intro named
    unfold ofLetters? at named
    split_ifs at named with same same
    all_goals
      cases named
      exact same
  · intro same
    rw [← ofLetters?_word condition]
    simp only [ofLetters?, Text.sameLetters, Text.sameLetters_iff.mp same]
    rfl

theorem Statement.isBlank_of_isGap {c : Char} (gap : isGap c = true) : Text.isBlank c = true := by
  rw [isGap, Bool.or_eq_true, beq_iff_eq, beq_iff_eq] at gap
  rcases gap with rfl | rfl <;> decide

namespace Decimal

theorem solid_ofNat (n : Nat) : Text.Solid (ofNat n).toList := by
  rw [toList_ofNat]
  refine ⟨Nat.toDigits_ne_nil, ?_⟩
  intro c hc
  exact Text.isBlank_of_isDigit (Nat.isDigit_of_mem_toDigits (by decide) (by decide) hc)

theorem solid_ofInt (z : Int) : Text.Solid (ofInt z).toList := by
  have digits := solid_ofNat z.natAbs
  by_cases negative : z < 0
  · rw [ofInt, if_pos negative, String.toList_append]
    refine ⟨by simp, ?_⟩
    intro c hc
    rcases List.mem_append.mp hc with sign | digit
    · rw [List.mem_singleton.mp sign]
      decide
    · exact digits.ink c digit
  · rw [ofInt, if_neg negative]
    exact digits

end Decimal

namespace Header

def keyword : Header → Keyword
  | .act (.move _) => .move
  | .act (.turn _) => .turn
  | .loop (.counted _) => .counted
  | .loop (.guarded _) => .guarded

def argument : Header → String
  | .act (.move steps) => Decimal.ofInt steps.toInt
  | .act (.turn side) => side.word
  | .loop (.counted times) => Decimal.ofNat times.toNat
  | .loop (.guarded condition) => condition.word

theorem toList_text (header : Header) :
    header.text.toList = header.keyword.word.toList ++ ' ' :: header.argument.toList := by
  rcases header with (steps | side) | (times | condition)
  all_goals simp [text, Action.text, Loop.text, keyword, argument, Keyword.word]

theorem solid_argument (header : Header) : Text.Solid header.argument.toList := by
  rcases header with (steps | side) | (times | condition)
  · exact Decimal.solid_ofInt _
  · exact side.solid_word
  · exact Decimal.solid_ofNat _
  · exact condition.solid_word

theorem header?_argument (header : Header) :
    header.keyword.header? header.argument.toList = some header := by
  rcases header with (steps | side) | (times | condition)
  · simp only [keyword, argument, Keyword.header?, Decimal.int64?_ofInt, Option.map_some]
  · simp only [keyword, argument, Keyword.header?, Side.ofLetters?_word, Option.map_some]
  · simp only [keyword, argument, Keyword.header?, Decimal.uint32?_ofNat, Option.map_some]
  · simp only [keyword, argument, Keyword.header?, Condition.ofLetters?_word, Option.map_some]

theorem parts_text (header : Header) :
    Statement.parts header.text.toList =
      [header.keyword.word.toList, header.argument.toList] := by
  have space : ∀ c ∈ [' '], Statement.isGap c = true := List.forall_mem_singleton.mpr rfl
  rw [toList_text]
  exact Text.filter_splitOnP_pair (fun _ => Statement.isBlank_of_isGap) (by simp) space
    header.keyword.solid_word header.solid_argument

/-- A printed header is read back as that header. -/
theorem read_text (header : Header) : Statement.read header.text.toList = .ok header := by
  have value := header.header?_argument
  have form : Statement.form? header.text.toList =
      some (header.keyword, header.argument.toList) := by
    simp only [Statement.form?, parts_text, Keyword.ofLetters?_word,
      Keyword.fits_of_header? value, if_true]
  simp only [Statement.read, form, value]

/-- A printed header starts and ends with ink. -/
theorem exists_ink_ends (header : Header) : ∃ ne : header.text.toList ≠ [],
    Text.isBlank (header.text.toList.head ne) = false ∧
      Text.isBlank (header.text.toList.getLast ne) = false := by
  have word := header.keyword.solid_word
  have argument := header.solid_argument
  refine ⟨by simp [toList_text], ?_, ?_⟩
  · apply word.ink
    simp only [toList_text, List.head_append_of_ne_nil word.ne_nil]
    exact List.head_mem word.ne_nil
  · apply argument.ink
    simp only [toList_text, List.getLast_append_of_ne_nil _ (List.cons_ne_nil _ _),
      List.getLast_cons argument.ne_nil]
    exact List.getLast_mem argument.ne_nil

end Header

namespace Program

theorem toList_line (entry : Nat × Header) :
    (line entry).toList = List.replicate (indentWidth * entry.1) ' ' ++ entry.2.text.toList := by
  simp [line]

theorem space_or_ink_of_mem_line {entry : Nat × Header} {c : Char}
    (hc : c ∈ (line entry).toList) : c = ' ' ∨ Text.isBlank c = false := by
  rw [toList_line, Header.toList_text] at hc
  rcases List.mem_append.mp hc with indent | text
  · exact .inl (List.eq_of_mem_replicate indent)
  rcases List.mem_append.mp text with word | rest
  · exact .inr (entry.2.keyword.solid_word.ink c word)
  rcases List.mem_cons.mp rest with space | argument
  · exact .inl space
  · exact .inr (entry.2.solid_argument.ink c argument)

theorem unbroken_line (entry : Nat × Header) : Text.Unbroken (line entry).toList := by
  have absent {c : Char} (space : c ≠ ' ') (blank : Text.isBlank c = true) :
      c ∉ (line entry).toList := by
    intro hc
    rcases space_or_ink_of_mem_line hc with same | ink
    · exact space same
    · exact Bool.noConfusion (blank.symm.trans ink)
  exact {
    feed := absent (by decide) (by decide)
    carriage := absent (by decide) (by decide)
    tab := absent (by decide) (by decide) }

theorem allBlank_line (entry : Nat × Header) : Text.allBlank (line entry).toList = false := by
  obtain ⟨ne, first, -⟩ := entry.2.exists_ink_ends
  have member : entry.2.text.toList.head ne ∈ (line entry).toList := by
    rw [toList_line]
    exact List.mem_append_right _ (List.head_mem ne)
  exact List.all_eq_false.mpr ⟨_, member, by simp [first]⟩

end Program

namespace Line

def printed (numbered : (Nat × Header) × Nat) : Line := ⟨numbered.2, Program.line numbered.1⟩

@[simp] theorem number_printed (numbered : (Nat × Header) × Nat) :
    (printed numbered).number = numbered.2 := rfl

@[simp] theorem indent_printed (numbered : (Nat × Header) × Nat) :
    (printed numbered).indent = Program.indentWidth * numbered.1.1 := by
  obtain ⟨ne, first, -⟩ := numbered.1.2.exists_ink_ends
  have stop : numbered.1.2.text.toList.takeWhile (· == ' ') = [] := by
    cases h : numbered.1.2.text.toList with
    | nil => exact absurd h ne
    | cons c rest =>
        simp only [h, List.head_cons] at first
        have : c ≠ ' ' := by
          rintro rfl
          exact absurd first (by decide)
        simp [this]
  rw [indent, printed, Program.toList_line, List.takeWhile_append_of_pos, stop]
  · simp
  · intro c hc
    simp [List.eq_of_mem_replicate hc]

@[simp] theorem read_content_printed (numbered : (Nat × Header) × Nat) :
    Statement.read (printed numbered).content = .ok numbered.1.2 := by
  obtain ⟨ne, first, last⟩ := numbered.1.2.exists_ink_ends
  rw [content, printed, Program.toList_line, Text.trim_indent_append _ ne first last]
  exact numbered.1.2.read_text

theorem ofChars_line (tabWidth number : Nat) (entry : Nat × Header) :
    ofChars tabWidth ((Program.line entry).toList, number) = printed (entry, number) := by
  simp [ofChars, printed, Text.expandTabs_of_not_mem tabWidth (Program.unbroken_line entry).tab]

/-- A text whose lines are printed ones and blank ones behind them has the printed lines. -/
theorem ofSource_of_splitLines (tabWidth : Nat) {source : String} {entries : List (Nat × Header)}
    {blanks : List (List Char)} (blank : ∀ line ∈ blanks, Text.allBlank line = true)
    (cut : Text.splitLines source.toList =
      entries.map (fun entry => (Program.line entry).toList) ++ blanks) :
    ofSource tabWidth source = (entries.zipIdx 1).map printed := by
  rw [ofSource, cut]
  -- The number of the first line changes from step to step of the induction.
  clear cut
  generalize 1 = first
  induction entries generalizing first with
  | nil =>
      have none : (blanks.zipIdx first).filter (fun line => !Text.allBlank line.1) = [] := by
        apply List.filter_eq_nil_iff.mpr
        intro numbered member
        simp [blank _ (List.fst_mem_of_mem_zipIdx member)]
      simp only [List.map_nil, List.nil_append, none, List.zipIdx_nil]
  | cons entry entries ih =>
      simp only [List.map_cons, List.cons_append, List.zipIdx_cons]
      rw [List.filter_cons_of_pos (by simp [Program.allBlank_line]), List.map_cons, ofChars_line,
        ih (first + 1)]

end Line

namespace Program

/-- Lines that each end with a line feed are cut back into these lines and an empty last one. -/
theorem splitLines_source (program : Program) :
    Text.splitLines (source program).toList =
      (listing program).map (fun entry => (line entry).toList) ++ [[]] := by
  rw [source, String.toList_join, List.flatMap_map]
  induction listing program with
  | nil => rfl
  | cons entry entries ih =>
      have feed : "\n".toList = ['\n'] := rfl
      rw [List.flatMap_cons, String.toList_append, feed, List.append_assoc, List.singleton_append,
        Text.splitLines_append_feed (unbroken_line entry).toOneLine, ih]
      rfl

theorem ofSource_source (tabWidth : Nat) (program : Program) :
    Line.ofSource tabWidth (source program) =
      ((listing program).zipIdx 1).map Line.printed := by
  apply Line.ofSource_of_splitLines tabWidth ?_ (splitLines_source program)
  intro line member
  rw [List.mem_singleton.mp member]
  rfl

end Program
end Boardwalk
