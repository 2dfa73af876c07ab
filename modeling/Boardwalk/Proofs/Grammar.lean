import Boardwalk.Proofs.Numerals
import Boardwalk.Proofs.Printed

/-!
# The grammar of a line

The form of a line, as a grammar whose rules each read a beginning of a text. A choice
takes the first rule that reads something and does not come back to it. A rule for a
word or a number has to end at the end of the text or before a space or a tab, and
between two such rules spaces and tabs are skipped. That no rule reads on into the next
word, and none stops inside one, is what makes the grammar the same as cutting a line
into two parts.
-/
namespace Boardwalk.Grammar

/-- What is left of a text behind the beginning that a rule reads. -/
abbrev Rule := List Char → Option (List Char)

def skip (text : List Char) : List Char := text.dropWhile Statement.isGap

/-- Whether a word may end before a text. -/
def boundary : List Char → Bool
  | [] => true
  | c :: _ => Statement.isGap c

def word (letters : List Char) : Rule := fun text =>
  if Text.sameLetters (text.take letters.length) letters then some (text.drop letters.length)
  else none

def choice (rules : List Rule) : Rule := fun text => rules.findSome? fun rule => rule text

def unsigned (signs : List Char) : List Char → List Char
  | [] => []
  | c :: rest => if signs.contains c then rest else c :: rest

def digits : Rule := fun text =>
  if (text.takeWhile Char.isDigit).isEmpty then none else some (text.dropWhile Char.isDigit)

def argument : Keyword → Rule
  | .move => fun text => digits (unsigned ['+', '-'] text)
  | .turn => choice [word Side.left.word.toList, word Side.right.word.toList]
  | .counted => fun text => digits (unsigned ['+'] text)
  | .guarded => choice [word Condition.wallAhead.word.toList, word Condition.gridEdge.word.toList]

/-- What a rule reads if it ends at a boundary, and what it leaves. -/
def token (rule : Rule) (text : List Char) : Option (List Char × List Char) :=
  match rule text with
  | none => none
  | some rest =>
    if boundary rest then some (text.take (text.length - rest.length), rest) else none

def statement (text : List Char) (keyword : Keyword) : Option ((Keyword × List Char) × List Char) :=
  match token (word keyword.word.toList) text with
  | none => none
  | some (_, rest) =>
    match token (argument keyword) (skip rest) with
    | none => none
    | some (found, rest) => some ((keyword, found), rest)

/-- The keyword and the argument of a line that the grammar reads to its end. -/
def line (text : List Char) : Option (Keyword × List Char) :=
  match [Keyword.guarded, .counted, .move, .turn].findSome? (statement (skip text)) with
  | none => none
  | some (found, rest) => if (skip rest).isEmpty then some found else none

def part (text : List Char) : List Char := text.takeWhile fun c => !Statement.isGap c

def behind (text : List Char) : List Char := text.dropWhile fun c => !Statement.isGap c

theorem part_append_behind (text : List Char) : part text ++ behind text = text :=
  List.takeWhile_append_dropWhile

theorem isGap_of_mem_part {text : List Char} {c : Char} (h : c ∈ part text) :
    Statement.isGap c = false := by
  have ink := List.mem_takeWhile_imp h
  rw [Bool.not_eq_true'] at ink
  exact ink

theorem boundary_behind (text : List Char) : boundary (behind text) = true := by
  induction text with
  | nil => rfl
  | cons c text ih =>
      rw [behind, List.dropWhile_cons]
      split
      · exact ih
      case isFalse stop => simpa [boundary] using stop

/-- A text is cut at the first boundary behind characters that are no gaps. -/
theorem part_eq_of_append {first rest : List Char} (ink : ∀ c ∈ first, Statement.isGap c = false)
    (stop : boundary rest = true) :
    part (first ++ rest) = first ∧ behind (first ++ rest) = rest := by
  have pass : ∀ c ∈ first, (!Statement.isGap c) = true := by
    intro c member
    rw [ink c member]
    rfl
  rw [part, behind, List.takeWhile_append_of_pos pass, List.dropWhile_append_of_pos pass]
  cases rest with
  | nil => exact ⟨List.append_nil first, rfl⟩
  | cons c rest =>
      have gap : Statement.isGap c = true := stop
      simp [gap]

/-- A rule reads exactly the first part of a text, if that part is one it accepts. -/
def Reads (rule : Rule) (accepts : List Char → Bool) : Prop :=
  ∀ text, token rule text = if accepts (part text) then some (part text, behind text) else none

theorem reads_of {rule : Rule} {accepts : List Char → Bool}
    (sound : ∀ text rest, rule text = some rest → boundary rest = true →
      ∃ first, text = first ++ rest ∧ (∀ c ∈ first, Statement.isGap c = false) ∧
        accepts first = true)
    (complete : ∀ text, accepts (part text) = true → rule text = some (behind text)) :
    Reads rule accepts := by
  intro text
  rw [token]
  by_cases accepted : accepts (part text) = true
  · have length : text.length - (behind text).length = (part text).length := by
      have whole := congrArg List.length (part_append_behind text)
      rw [List.length_append] at whole
      omega
    have start : text.take (part text).length = part text :=
      (congrArg (List.take _) (part_append_behind text)).symm.trans List.take_left
    rw [complete text accepted, if_pos accepted]
    dsimp only
    rw [if_pos (boundary_behind text), length, start]
  · rw [if_neg accepted]
    cases read : rule text with
    | none => rfl
    | some rest =>
        dsimp only
        apply if_neg
        intro stop
        obtain ⟨first, rfl, ink, good⟩ := sound text rest read stop
        rw [(part_eq_of_append ink stop).1] at accepted
        exact accepted good

theorem isGap_of_ink {c : Char} (ink : Text.isBlank c = false) : Statement.isGap c = false := by
  cases gap : Statement.isGap c with
  | false => rfl
  | true =>
      rw [Statement.isBlank_of_isGap gap] at ink
      cases ink

theorem word_sound {letters : List Char} (solid : Text.Solid letters) {text rest : List Char}
    (read : word letters text = some rest) :
    ∃ first, text = first ++ rest ∧ (∀ c ∈ first, Statement.isGap c = false) ∧
      Text.sameLetters first letters = true := by
  rw [word] at read
  split at read
  case isFalse => cases read
  case isTrue same =>
    cases read
    refine ⟨_, (List.take_append_drop _ text).symm, ?_, same⟩
    intro c member
    exact isGap_of_ink ((solid.of_sameLetters same).ink c member)

theorem word_complete {letters text : List Char}
    (same : Text.sameLetters (part text) letters = true) :
    word letters text = some (behind text) := by
  have length : letters.length = (part text).length := by
    have lowered := congrArg List.length (Text.sameLetters_iff.mp same)
    rw [Text.length_lowered, Text.length_lowered] at lowered
    exact lowered.symm
  have start : text.take (part text).length = part text :=
    (congrArg (List.take _) (part_append_behind text)).symm.trans List.take_left
  have rest : text.drop (part text).length = behind text :=
    (congrArg (List.drop _) (part_append_behind text)).symm.trans List.drop_left
  rw [word, length, start, rest, if_pos same]

theorem reads_word {letters : List Char} (solid : Text.Solid letters) :
    Reads (word letters) fun first => Text.sameLetters first letters := by
  apply reads_of
  · intro text rest read _
    exact word_sound solid read
  · intro text same
    exact word_complete same

theorem part_cons {c : Char} {rest : List Char} (ne : part (c :: rest) ≠ []) :
    part (c :: rest) = c :: part rest := by
  rw [part, List.takeWhile_cons] at ne ⊢
  split
  case isTrue => rfl
  case isFalse gap =>
    rw [if_neg gap] at ne
    exact absurd rfl ne

/-- A word is not read where another word stands that starts with a different letter. -/
theorem word_eq_none {letters other text : List Char} (first : Text.Solid letters)
    (second : Text.Solid other)
    (apart : (Text.lowered letters).head? ≠ (Text.lowered other).head?)
    (same : Text.sameLetters (part text) other = true) : word letters text = none := by
  rw [word]
  apply if_neg
  intro read
  apply apart
  rw [← Text.sameLetters_iff.mp read, ← Text.sameLetters_iff.mp same]
  have ne : part text ≠ [] := (second.of_sameLetters same).ne_nil
  obtain ⟨l, ls, rfl⟩ := List.exists_cons_of_ne_nil first.ne_nil
  cases text with
  | nil => exact absurd rfl ne
  | cons c rest =>
      rw [part_cons ne]
      rfl

theorem reads_choice {letters other : List Char} (first : Text.Solid letters)
    (second : Text.Solid other)
    (apart : (Text.lowered letters).head? ≠ (Text.lowered other).head?) :
    Reads (choice [word letters, word other]) fun first =>
      Text.sameLetters first letters || Text.sameLetters first other := by
  apply reads_of
  · intro text rest read _
    rw [choice, List.findSome?_cons] at read
    split at read
    case h_1 found =>
      cases read
      obtain ⟨start, cut, ink, same⟩ := word_sound first found
      exact ⟨start, cut, ink, by rw [same, Bool.true_or]⟩
    case h_2 =>
      rw [List.findSome?_cons] at read
      split at read
      case h_1 found =>
        cases read
        obtain ⟨start, cut, ink, same⟩ := word_sound second found
        exact ⟨start, cut, ink, by rw [same, Bool.or_true]⟩
      case h_2 => cases read
  · intro text same
    rw [choice, List.findSome?_cons]
    rcases (Bool.or_eq_true _ _).mp same with same | same
    · rw [word_complete same]
    · rw [word_eq_none first second apart same, List.findSome?_cons, word_complete same]

theorem isGap_of_isDigit {c : Char} (digit : c.isDigit = true) : Statement.isGap c = false :=
  isGap_of_ink (Text.isBlank_of_isDigit digit)

theorem digits_sound {text rest : List Char} (read : digits text = some rest) :
    ∃ first, text = first ++ rest ∧ (∀ c ∈ first, Statement.isGap c = false) ∧
      (Decimal.digits? first).isSome = true := by
  rw [digits] at read
  split at read
  case isTrue => cases read
  case isFalse found =>
    cases read
    refine ⟨_, List.takeWhile_append_dropWhile.symm, ?_, Decimal.isSome_digits?_iff.mpr ?_⟩
    · intro c member
      exact isGap_of_isDigit (List.mem_takeWhile_imp member)
    · exact ⟨by simpa using found, fun c => List.mem_takeWhile_imp⟩

theorem digits_complete {text : List Char}
    (found : (Decimal.digits? (part text)).isSome = true) : digits text = some (behind text) := by
  obtain ⟨ne, all⟩ := Decimal.isSome_digits?_iff.mp found
  have stop : (behind text).takeWhile Char.isDigit = [] ∧
      (behind text).dropWhile Char.isDigit = behind text := by
    have bounded := boundary_behind text
    cases rest : behind text with
    | nil => exact ⟨rfl, rfl⟩
    | cons c rest' =>
        rw [rest] at bounded
        have noDigit : c.isDigit = false := by
          cases digit : c.isDigit with
          | false => rfl
          | true => exact absurd bounded (by rw [boundary, isGap_of_isDigit digit]; decide)
        simp [noDigit]
  have run : text.takeWhile Char.isDigit = part text ∧
      text.dropWhile Char.isDigit = behind text := by
    rw [← part_append_behind text, List.takeWhile_append_of_pos all,
      List.dropWhile_append_of_pos all, stop.1, stop.2, part_append_behind, List.append_nil]
    exact ⟨rfl, rfl⟩
  rw [digits, run.1, run.2, if_neg]
  simpa using ne

/-- A sign in front moves neither the end of the first part nor what is behind it. -/
theorem part_unsigned {signs : List Char} (ink : ∀ c ∈ signs, Statement.isGap c = false)
    (text : List Char) :
    part (unsigned signs text) = unsigned signs (part text) ∧
      behind (unsigned signs text) = behind text := by
  cases text with
  | nil => exact ⟨rfl, rfl⟩
  | cons c rest =>
      by_cases sign : c ∈ signs
      · have head := ink c sign
        simp [part, behind, unsigned, head, sign]
      · cases gap : Statement.isGap c with
        | true => simp [part, behind, unsigned, gap, sign]
        | false => simp [part, behind, unsigned, gap, sign]

theorem reads_number {signs : List Char} (ink : ∀ c ∈ signs, Statement.isGap c = false) :
    Reads (fun text => digits (unsigned signs text)) fun first =>
      (Decimal.digits? (unsigned signs first)).isSome := by
  apply reads_of
  · intro text rest read stop
    obtain ⟨first, cut, gaps, found⟩ := digits_sound read
    have unsigned := part_unsigned ink text
    rw [cut, (part_eq_of_append gaps stop).1, (part_eq_of_append gaps stop).2] at unsigned
    refine ⟨part text, ?_, fun c member => isGap_of_mem_part member, ?_⟩
    · rw [unsigned.2, part_append_behind]
    · rw [← unsigned.1]
      exact found
  · intro text found
    rw [← (part_unsigned ink text).1] at found
    rw [digits_complete found, (part_unsigned ink text).2]

theorem isSome_natural? (text : List Char) :
    (Decimal.natural? text).isSome = (Decimal.digits? (unsigned ['+'] text)).isSome := by
  unfold Decimal.natural?
  split
  case h_1 => rfl
  case h_2 other =>
    cases text with
    | nil => rfl
    | cons c rest =>
        have sign : c ≠ '+' := fun h => other rest (by rw [h])
        simp [unsigned, sign]

theorem isSome_integer? (text : List Char) :
    (Decimal.integer? text).isSome = (Decimal.digits? (unsigned ['+', '-'] text)).isSome := by
  unfold Decimal.integer?
  split
  case h_1 => simp [unsigned]
  case h_2 other =>
    rw [Option.isSome_map, isSome_natural?]
    cases text with
    | nil => rfl
    | cons c rest =>
        have sign : c ≠ '-' := fun h => other rest (by rw [h])
        simp [unsigned, sign]

theorem isSome_side (first : List Char) :
    (Side.ofLetters? first).isSome =
      (Text.sameLetters first Side.left.word.toList ||
        Text.sameLetters first Side.right.word.toList) := by
  unfold Side.ofLetters?
  cases Text.sameLetters first Side.left.word.toList <;>
    cases Text.sameLetters first Side.right.word.toList <;> rfl

theorem isSome_condition (first : List Char) :
    (Condition.ofLetters? first).isSome =
      (Text.sameLetters first Condition.wallAhead.word.toList ||
        Text.sameLetters first Condition.gridEdge.word.toList) := by
  unfold Condition.ofLetters?
  cases Text.sameLetters first Condition.wallAhead.word.toList <;>
    cases Text.sameLetters first Condition.gridEdge.word.toList <;> rfl

/-- The rule for an argument accepts what fits the keyword. -/
theorem reads_argument (keyword : Keyword) :
    Reads (argument keyword) fun first => keyword.fits first := by
  cases keyword with
  | move =>
      have number : Reads (argument .move) fun first =>
          (Decimal.digits? (unsigned ['+', '-'] first)).isSome :=
        reads_number (List.forall_mem_cons.mpr ⟨rfl, List.forall_mem_singleton.mpr rfl⟩)
      simp only [Keyword.fits, isSome_integer?]
      exact number
  | turn =>
      simp only [Keyword.fits, isSome_side]
      exact reads_choice Side.left.solid_word Side.right.solid_word (by decide)
  | counted =>
      have number : Reads (argument .counted) fun first =>
          (Decimal.digits? (unsigned ['+'] first)).isSome :=
        reads_number (List.forall_mem_singleton.mpr rfl)
      simp only [Keyword.fits, isSome_natural?]
      exact number
  | guarded =>
      simp only [Keyword.fits, isSome_condition]
      exact reads_choice Condition.wallAhead.solid_word Condition.gridEdge.solid_word (by decide)

theorem statement_eq (text : List Char) (keyword : Keyword) :
    statement text keyword =
      if Text.sameLetters (part text) keyword.word.toList ∧
          keyword.fits (part (skip (behind text))) then
        some ((keyword, part (skip (behind text))), behind (skip (behind text)))
      else none := by
  have first : token (word keyword.word.toList) text =
      if Text.sameLetters (part text) keyword.word.toList then some (part text, behind text)
      else none := reads_word keyword.solid_word text
  have second : token (argument keyword) (skip (behind text)) =
      if keyword.fits (part (skip (behind text))) then
        some (part (skip (behind text)), behind (skip (behind text)))
      else none := reads_argument keyword _
  rw [statement, first]
  cases Text.sameLetters (part text) keyword.word.toList with
  | false => rfl
  | true =>
      simp only [if_true, true_and]
      rw [second]
      cases keyword.fits (part (skip (behind text))) <;> rfl

theorem findSome?_eq_of_unique {α β : Type} {f : α → Option β} {a : α} {items : List α}
    (member : a ∈ items) (others : ∀ b, b ≠ a → f b = none) : items.findSome? f = f a := by
  induction items with
  | nil => cases member
  | cons b rest ih =>
      rw [List.findSome?_cons]
      by_cases same : b = a
      · subst same
        cases found : f b with
        | some _ => rfl
        | none =>
            apply List.findSome?_eq_none_iff.mpr
            intro c _
            by_cases again : c = b
            · rw [again, found]
            · exact others c again
      · rw [others b same]
        exact ih (List.mem_of_ne_of_mem (Ne.symm same) member)

/-- No text starts with two keywords, so the order of the choice makes no difference. -/
theorem findSome?_statement (text : List Char) :
    [Keyword.guarded, .counted, .move, .turn].findSome? (statement text) =
      match Keyword.ofLetters? (part text) with
      | none => none
      | some keyword => statement text keyword := by
  have other {keyword : Keyword} (unnamed : Keyword.ofLetters? (part text) ≠ some keyword) :
      statement text keyword = none := by
    rw [statement_eq, if_neg]
    rintro ⟨same, -⟩
    exact unnamed (Keyword.ofLetters?_eq_some_iff.mpr same)
  cases named : Keyword.ofLetters? (part text) with
  | none =>
      apply List.findSome?_eq_none_iff.mpr
      intro keyword _
      apply other
      rw [named]
      exact Option.some_ne_none keyword ∘ Eq.symm
  | some keyword =>
      apply findSome?_eq_of_unique
      · cases keyword <;> decide
      · intro rival different
        apply other
        rw [named]
        exact fun same => different (Option.some.inj same).symm

theorem line_eq (text : List Char) :
    line text =
      match Keyword.ofLetters? (part (skip text)) with
      | none => none
      | some keyword =>
        let argument := skip (behind (skip text))
        if keyword.fits (part argument) ∧ skip (behind argument) = [] then
          some (keyword, part argument)
        else none := by
  rw [line, findSome?_statement]
  cases named : Keyword.ofLetters? (part (skip text)) with
  | none => rfl
  | some keyword =>
      dsimp only
      rw [statement_eq, Keyword.ofLetters?_eq_some_iff.mp named]
      by_cases fits : keyword.fits (part (skip (behind (skip text)))) = true
      · simp [fits]
      · simp [fits]

theorem parts_append_gap {c : Char} (gap : Statement.isGap c = true) (before after : List Char) :
    Statement.parts (before ++ c :: after) = Statement.parts before ++ Statement.parts after := by
  simp [Statement.parts, List.splitOnP_append_cons _ _ gap]

theorem parts_cons_gap {c : Char} (gap : Statement.isGap c = true) (rest : List Char) :
    Statement.parts (c :: rest) = Statement.parts rest :=
  parts_append_gap gap [] rest

theorem parts_skip (text : List Char) : Statement.parts (skip text) = Statement.parts text := by
  induction text with
  | nil => rfl
  | cons c rest ih =>
      rw [skip, List.dropWhile_cons]
      split
      case isTrue gap => rw [parts_cons_gap gap, ← ih, skip]
      case isFalse => rfl

theorem part_skip_ne_nil {text : List Char} (ne : skip text ≠ []) : part (skip text) ≠ [] := by
  have head := List.head_dropWhile_not Statement.isGap ne
  have ink : (!Statement.isGap ((skip text).head ne)) = true := by
    rw [Bool.not_eq_true']
    exact head
  intro empty
  rw [← List.cons_head_tail ne, part, List.takeWhile_cons, if_pos ink] at empty
  exact List.cons_ne_nil _ _ empty

/-- The parts of a text are its first part and the parts of what is behind it. -/
theorem parts_eq (text : List Char) :
    Statement.parts text =
      if skip text = [] then [] else part (skip text) :: Statement.parts (behind (skip text)) := by
  rw [← parts_skip text]
  split
  case isTrue blank => rw [blank]; rfl
  case isFalse ne =>
    have first : Statement.parts (part (skip text)) = [part (skip text)] := by
      rw [Statement.parts, List.splitOnP_eq_singleton fun c member => isGap_of_mem_part member]
      simp [part_skip_ne_nil ne]
    have whole : Statement.parts (part (skip text) ++ behind (skip text)) =
        part (skip text) :: Statement.parts (behind (skip text)) := by
      have stop := boundary_behind (skip text)
      cases rest : behind (skip text) with
      | nil => rw [List.append_nil, first]; rfl
      | cons c rest' =>
          rw [rest] at stop
          rw [parts_append_gap stop, first, parts_cons_gap stop]
          rfl
    rwa [part_append_behind] at whole

theorem parts_eq_nil_iff {text : List Char} : Statement.parts text = [] ↔ skip text = [] := by
  rw [parts_eq]
  split
  case isTrue blank => exact iff_of_true rfl blank
  case isFalse ne => exact iff_of_false (List.cons_ne_nil _ _) ne

theorem parts_eq_cons {text first : List Char} {rest : List (List Char)}
    (cut : Statement.parts text = first :: rest) :
    skip text ≠ [] ∧ part (skip text) = first ∧ Statement.parts (behind (skip text)) = rest := by
  rw [parts_eq] at cut
  split at cut
  case isTrue => cases cut
  case isFalse ne => exact ⟨ne, List.cons.inj cut⟩

/-- What is skipped between two parts is not empty. -/
theorem exists_gap_of_behind {text : List Char} (ne : skip (behind text) ≠ []) :
    ∃ gap, gap ≠ [] ∧ (∀ c ∈ gap, Statement.isGap c = true) ∧
      behind text = gap ++ skip (behind text) := by
  refine ⟨(behind text).takeWhile Statement.isGap, ?_, fun c => List.mem_takeWhile_imp,
    List.takeWhile_append_dropWhile.symm⟩
  have stop := boundary_behind text
  cases rest : behind text with
  | nil =>
      rw [rest] at ne
      exact absurd rfl ne
  | cons c rest' =>
      rw [rest] at stop
      have gap : Statement.isGap c = true := stop
      rw [List.takeWhile_cons, if_pos gap]
      exact List.cons_ne_nil _ _

/-- The grammar reads exactly the lines of two parts, a keyword and an argument that fits. -/
theorem line_eq_form? (text : List Char) : line text = Statement.form? text := by
  rw [line_eq, Statement.form?, parts_eq text]
  by_cases blank : skip text = []
  · rw [if_pos blank, blank]
    rfl
  rw [if_neg blank, parts_eq (behind (skip text))]
  by_cases alone : skip (behind (skip text)) = []
  · rw [if_pos alone, alone]
    cases Keyword.ofLetters? (part (skip text)) with
    | none => rfl
    | some keyword => cases keyword <;> rfl
  rw [if_neg alone]
  by_cases last : skip (behind (skip (behind (skip text)))) = []
  · rw [parts_eq_nil_iff.mpr last]
    dsimp only
    cases Keyword.ofLetters? (part (skip text)) with
    | none => rfl
    | some keyword => simp [last]
  · obtain ⟨next, others, more⟩ := List.exists_cons_of_ne_nil (mt parts_eq_nil_iff.mp last)
    rw [more]
    cases Keyword.ofLetters? (part (skip text)) with
    | none => rfl
    | some keyword => simp [last]

end Boardwalk.Grammar
