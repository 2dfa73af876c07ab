import Boardwalk.Proofs.Grammar

/-!
# What the words of a line say

A line is read by its form and, if it has none, refused for its words. The form is cut
at spaces and tabs, the words at every blank character, and the number of a line of the
right form may still be out of range. Here the outcome is said from the words alone, as
a relation that uses none of the readers, and the line is shown to be read in this way.
The two ways of reading can differ only where a word has a blank character in it, and no
keyword and no argument has one.
-/
namespace Boardwalk

namespace Keyword

def Named (word : List Char) (keyword : Keyword) : Prop :=
  Text.lowered word = Text.lowered keyword.word.toList

/-- The arguments that a keyword takes, and the headers they make. -/
inductive Accepts : Keyword → List Char → Header → Prop
  | move {argument : List Char} {z : Int} (numeral : Decimal.Numeral argument z)
      (low : -2 ^ 63 ≤ z) (high : z ≤ 2 ^ 63 - 1) :
      Accepts .move argument (.act (.move (.ofInt z)))
  | turn {argument : List Char} {side : Side}
      (same : Text.lowered argument = Text.lowered side.word.toList) :
      Accepts .turn argument (.act (.turn side))
  | counted {argument : List Char} {n : Nat} (numeral : Decimal.Numeral argument n)
      (sign : argument.head? ≠ some '-') (high : n ≤ 2 ^ 32 - 1) :
      Accepts .counted argument (.loop (.counted (.ofNat n)))
  | guarded {argument : List Char} {condition : Condition}
      (same : Text.lowered argument = Text.lowered condition.word.toList) :
      Accepts .guarded argument (.loop (.guarded condition))

theorem named_iff {word : List Char} {keyword : Keyword} :
    keyword.Named word ↔ ofLetters? word = some keyword := by
  rw [ofLetters?_eq_some_iff, Text.sameLetters_iff]
  rfl

theorem Named.unique {word : List Char} {a b : Keyword} (ha : a.Named word) (hb : b.Named word) :
    a = b :=
  Option.some.inj ((named_iff.mp ha).symm.trans (named_iff.mp hb))

theorem Named.solid {word : List Char} {keyword : Keyword} (named : keyword.Named word) :
    Text.Solid word :=
  keyword.solid_word.of_sameLetters (Text.sameLetters_iff.mpr named)

theorem header?_eq_some_iff {keyword : Keyword} {argument : List Char} {header : Header} :
    keyword.header? argument = some header ↔ keyword.Accepts argument header := by
  constructor
  · intro found
    cases keyword with
    | move =>
        obtain ⟨steps, read, rfl⟩ := Option.map_eq_some_iff.mp found
        obtain ⟨z, numeral, range⟩ := Option.bind_eq_some_iff.mp read
        rw [Decimal.int64OfInt?, Int64.toInt_minValue, Int64.toInt_maxValue] at range
        split at range
        case isTrue inside =>
          cases range
          exact .move (Decimal.integer?_eq_some_iff.mp numeral) inside.1 inside.2
        case isFalse => cases range
    | turn =>
        obtain ⟨side, read, rfl⟩ := Option.map_eq_some_iff.mp found
        exact .turn (Text.sameLetters_iff.mp (Side.ofLetters?_eq_some_iff.mp read))
    | counted =>
        obtain ⟨times, read, rfl⟩ := Option.map_eq_some_iff.mp found
        obtain ⟨n, number, range⟩ := Option.bind_eq_some_iff.mp read
        obtain ⟨numeral, sign⟩ := Decimal.natural?_eq_some_iff.mp number
        rw [Decimal.uint32OfNat?] at range
        split at range
        case isTrue inside =>
          cases range
          exact .counted numeral sign (Nat.le_pred_of_lt inside)
        case isFalse => cases range
    | guarded =>
        obtain ⟨condition, read, rfl⟩ := Option.map_eq_some_iff.mp found
        exact .guarded (Text.sameLetters_iff.mp (Condition.ofLetters?_eq_some_iff.mp read))
  · intro accepted
    cases accepted with
    | move numeral low high =>
        rw [header?, Decimal.int64?, Decimal.integer?_eq_some_iff.mpr numeral, Option.bind_some,
          Decimal.int64OfInt?, Int64.toInt_minValue, Int64.toInt_maxValue, if_pos ⟨low, high⟩]
        rfl
    | turn same =>
        rw [header?, Side.ofLetters?_eq_some_iff.mpr (Text.sameLetters_iff.mpr same)]
        rfl
    | counted numeral sign high =>
        have range := Nat.lt_succ_of_le high
        rw [header?, Decimal.uint32?, Decimal.natural?_eq_some_iff.mpr ⟨numeral, sign⟩,
          Option.bind_some, Decimal.uint32OfNat?, if_pos (show _ < UInt32.size from range)]
        rfl
    | guarded same =>
        rw [header?, Condition.ofLetters?_eq_some_iff.mpr (Text.sameLetters_iff.mpr same)]
        rfl

theorem header?_eq_none_iff {keyword : Keyword} {argument : List Char} :
    keyword.header? argument = none ↔ ∀ header, ¬ keyword.Accepts argument header := by
  simp only [Option.eq_none_iff_forall_ne_some, ne_eq, header?_eq_some_iff]

/-- An argument that fits is one word, also if its number is out of range. -/
theorem solid_of_fits {keyword : Keyword} {argument : List Char}
    (fits : keyword.fits argument = true) : Text.Solid argument := by
  cases keyword with
  | move =>
      obtain ⟨z, found⟩ := Option.isSome_iff_exists.mp fits
      exact (Decimal.integer?_eq_some_iff.mp found).solid
  | turn =>
      obtain ⟨side, found⟩ := Option.isSome_iff_exists.mp fits
      exact side.solid_word.of_sameLetters (Side.ofLetters?_eq_some_iff.mp found)
  | counted =>
      obtain ⟨n, found⟩ := Option.isSome_iff_exists.mp fits
      exact (Decimal.natural?_eq_some_iff.mp found).1.solid
  | guarded =>
      obtain ⟨condition, found⟩ := Option.isSome_iff_exists.mp fits
      exact condition.solid_word.of_sameLetters (Condition.ofLetters?_eq_some_iff.mp found)

end Keyword

namespace Statement

theorem isGap_iff {c : Char} : isGap c = true ↔ c = ' ' ∨ c = '\t' := by
  rw [isGap, Bool.or_eq_true, beq_iff_eq, beq_iff_eq]

def SetApart (text word argument : List Char) : Prop :=
  ∃ gap, gap ≠ [] ∧ (∀ c ∈ gap, c = ' ' ∨ c = '\t') ∧ text = word ++ (gap ++ argument)

section
variable {text word argument : List Char}

theorem SetApart.parts_eq (apart : SetApart text word argument) (hw : Text.Solid word)
    (ha : Text.Solid argument) : parts text = [word, argument] := by
  obtain ⟨gap, ne, gaps, rfl⟩ := apart
  exact Text.filter_splitOnP_pair (fun _ => isBlank_of_isGap) ne
    (fun c member => isGap_iff.mpr (gaps c member)) hw ha

theorem SetApart.words_eq (apart : SetApart text word argument) (hw : Text.Solid word)
    (ha : Text.Solid argument) : Text.words text = [word, argument] := by
  obtain ⟨gap, ne, gaps, rfl⟩ := apart
  exact Text.filter_splitOnP_pair (fun _ => id) ne
    (fun c member => isBlank_of_isGap (isGap_iff.mpr (gaps c member))) hw ha

theorem skip_of_trimmed (trimmed : Text.Trimmed text) : Grammar.skip text = text := by
  have whole : text.takeWhile isGap ++ Grammar.skip text = text := List.takeWhile_append_dropWhile
  have none := trimmed.eq_nil_of_prefix whole.symm fun c member =>
    isBlank_of_isGap (List.mem_takeWhile_imp member)
  rwa [none] at whole

theorem setApart_of_parts (trimmed : Text.Trimmed text) (cut : parts text = [word, argument]) :
    SetApart text word argument := by
  obtain ⟨-, first, rest⟩ := Grammar.parts_eq_cons cut
  rw [skip_of_trimmed trimmed] at first rest
  obtain ⟨ne, second, others⟩ := Grammar.parts_eq_cons rest
  obtain ⟨gap, some, gaps, between⟩ := Grammar.exists_gap_of_behind ne
  have whole : text = word ++ (gap ++ argument) ++
      Grammar.behind (Grammar.skip (Grammar.behind text)) := by
    rw [List.append_assoc, List.append_assoc, ← second, Grammar.part_append_behind, ← between,
      ← first, Grammar.part_append_behind]
  -- Behind the argument there are gaps only, and the text does not end with one.
  have stop : Grammar.behind (Grammar.skip (Grammar.behind text)) = [] := by
    have last := List.dropWhile_eq_nil_iff.mp (Grammar.parts_eq_nil_iff.mp others)
    exact trimmed.eq_nil_of_suffix whole fun c member => isBlank_of_isGap (last c member)
  rw [stop, List.append_nil] at whole
  exact ⟨gap, some, fun c member => isGap_iff.mp (gaps c member), whole⟩

/-- A line has the right form if it is a keyword and an argument that fits, set apart by spaces
and tabs. -/
theorem form?_eq_some_iff {keyword : Keyword} (trimmed : Text.Trimmed text) :
    form? text = some (keyword, argument) ↔
      ∃ word, keyword.Named word ∧ keyword.fits argument = true ∧ SetApart text word argument := by
  constructor
  · intro found
    unfold form? at found
    split at found
    case h_2 => cases found
    case h_1 word other cut =>
      split at found
      case h_2 => cases found
      case h_1 named =>
        split at found
        case isFalse => cases found
        case isTrue fits =>
          cases found
          exact ⟨word, Keyword.named_iff.mpr named, fits, setApart_of_parts trimmed cut⟩
  · rintro ⟨word, named, fits, apart⟩
    simp only [form?, apart.parts_eq named.solid (Keyword.solid_of_fits fits),
      Keyword.named_iff.mp named, fits, if_true]

theorem words_of_form? {keyword : Keyword} (trimmed : Text.Trimmed text)
    (found : form? text = some (keyword, argument)) :
    ∃ word, keyword.Named word ∧ SetApart text word argument ∧
      Text.words text = [word, argument] := by
  obtain ⟨word, named, fits, apart⟩ := (form?_eq_some_iff trimmed).mp found
  exact ⟨word, named, apart, apart.words_eq named.solid (Keyword.solid_of_fits fits)⟩

end

/-- What comes of a text with given words. -/
inductive Verdict (text : List Char) : List (List Char) → Except Mistake Header → Prop
  | header {keyword : Keyword} {word argument : List Char} {header : Header}
      (named : keyword.Named word) (accepted : keyword.Accepts argument header)
      (apart : SetApart text word argument) :
      Verdict text [word, argument] (.ok header)
  | command {word : List Char} {rest : List (List Char)}
      (unknown : ∀ keyword : Keyword, ¬ keyword.Named word) :
      Verdict text (word :: rest) (.error (.command (String.ofList word)))
  | missing {keyword : Keyword} {word : List Char} (named : keyword.Named word) :
      Verdict text [word] (.error (.missing keyword))
  | argument {keyword : Keyword} {word argument : List Char} {rest : List (List Char)}
      (named : keyword.Named word) (act : keyword = .move ∨ keyword = .turn)
      (refused : ∀ header, ¬ keyword.Accepts argument header) :
      Verdict text (word :: argument :: rest)
        (.error (.argument keyword (String.ofList argument)))
  | repeatCount {word argument : List Char} {rest : List (List Char)}
      (named : Keyword.counted.Named word)
      (refused : ∀ header, ¬ Keyword.counted.Accepts argument header) :
      Verdict text (word :: argument :: rest) (.error (.repeatCount (String.ofList text)))
  | condition {word argument : List Char} {rest : List (List Char)}
      (named : Keyword.guarded.Named word)
      (refused : ∀ header, ¬ Keyword.guarded.Accepts argument header) :
      Verdict text (word :: argument :: rest) (.error (.condition (String.ofList argument)))
  | trailing {keyword : Keyword} {word argument next : List Char} {rest : List (List Char)}
      {header : Header} (named : keyword.Named word) (accepted : keyword.Accepts argument header) :
      Verdict text (word :: argument :: next :: rest)
        (.error (.trailing keyword (String.ofList (List.intercalate [' '] (next :: rest)))))
  | separator {keyword : Keyword} {word argument : List Char} {header : Header}
      (named : keyword.Named word) (accepted : keyword.Accepts argument header)
      (close : ¬ SetApart text word argument) :
      Verdict text [word, argument] (.error (.separator (String.ofList text)))

theorem exists_verdict (text : List Char) {words : List (List Char)} (ne : words ≠ []) :
    ∃ result, Verdict text words result := by
  obtain ⟨word, rest, rfl⟩ := List.exists_cons_of_ne_nil ne
  by_cases known : ∃ keyword : Keyword, keyword.Named word
  case neg => exact ⟨_, .command (not_exists.mp known)⟩
  obtain ⟨keyword, named⟩ := known
  cases rest with
  | nil => exact ⟨_, .missing named⟩
  | cons argument rest =>
      by_cases valid : ∃ header, keyword.Accepts argument header
      case neg =>
        have refused := not_exists.mp valid
        cases keyword with
        | move => exact ⟨_, .argument named (.inl rfl) refused⟩
        | turn => exact ⟨_, .argument named (.inr rfl) refused⟩
        | counted => exact ⟨_, .repeatCount named refused⟩
        | guarded => exact ⟨_, .condition named refused⟩
      obtain ⟨header, accepted⟩ := valid
      cases rest with
      | cons next rest => exact ⟨_, .trailing named accepted⟩
      | nil =>
          by_cases apart : SetApart text word argument
          · exact ⟨_, .header named accepted apart⟩
          · exact ⟨_, .separator named accepted apart⟩

section
variable {text word : List Char} {rest : List (List Char)}

theorem read_eq_ok_iff {header : Header} (trimmed : Text.Trimmed text) :
    read text = .ok header ↔
      ∃ keyword word argument, Keyword.Named word keyword ∧ keyword.Accepts argument header ∧
        SetApart text word argument := by
  constructor
  · intro passed
    unfold read at passed
    split at passed
    case h_1 => cases passed
    case h_2 keyword argument form =>
      obtain ⟨word, named, apart, -⟩ := words_of_form? trimmed form
      split at passed
      case h_1 value =>
        cases passed
        exact ⟨keyword, word, argument, named, Keyword.header?_eq_some_iff.mp value, apart⟩
      case h_2 => cases passed
  · rintro ⟨keyword, word, argument, named, accepted, apart⟩
    have value := Keyword.header?_eq_some_iff.mpr accepted
    have form := (form?_eq_some_iff trimmed).mpr
      ⟨word, named, Keyword.fits_of_header? value, apart⟩
    simp only [read, form, value]

/-- A line of the right form whose number is out of range is refused as it would be for its
words. -/
theorem eq_diagnose_of_read {mistake : Mistake} (trimmed : Text.Trimmed text)
    (failed : read text = .error mistake) : mistake = diagnose text := by
  unfold read at failed
  split at failed
  case h_1 => exact (Except.error.inj failed).symm
  case h_2 keyword argument form =>
    obtain ⟨word, named, -, words⟩ := words_of_form? trimmed form
    split at failed
    case h_1 => cases failed
    case h_2 value =>
      cases failed
      simp only [diagnose, words, Keyword.named_iff.mp named, value, Option.isNone_none, if_true]

theorem read_eq_diagnose (trimmed : Text.Trimmed text)
    (refused : ∀ keyword word argument header, Keyword.Named word keyword →
      keyword.Accepts argument header → Text.words text = [word, argument] →
        ¬ SetApart text word argument) :
    read text = .error (diagnose text) := by
  cases result : read text with
  | error mistake => rw [eq_diagnose_of_read trimmed result]
  | ok header =>
      obtain ⟨keyword, word, argument, named, accepted, apart⟩ :=
        (read_eq_ok_iff trimmed).mp result
      have fits := Keyword.fits_of_header? (Keyword.header?_eq_some_iff.mpr accepted)
      have words := apart.words_eq named.solid (Keyword.solid_of_fits fits)
      exact absurd apart (refused keyword word argument header named accepted words)

theorem read_refused {keyword : Keyword} {argument : List Char} (trimmed : Text.Trimmed text)
    (cut : Text.words text = word :: argument :: rest) (named : keyword.Named word)
    (refused : ∀ header, ¬ keyword.Accepts argument header) :
    read text = .error (keyword.refuse text argument) := by
  rw [read_eq_diagnose trimmed]
  · simp only [diagnose, cut, Keyword.named_iff.mp named,
      Keyword.header?_eq_none_iff.mpr refused, Option.isNone_none, if_true]
  · intro other word' argument' header named' accepted cut'
    cases cut.symm.trans cut'
    cases named.unique named'
    exact absurd accepted (refused header)

/-- The outcome that the words of a text say is the one it is read with. -/
theorem Verdict.read_eq {result : Except Mistake Header} (trimmed : Text.Trimmed text)
    (verdict : Verdict text (Text.words text) result) : read text = result := by
  generalize cut : Text.words text = words at verdict
  cases verdict with
  | header named accepted apart =>
      exact (read_eq_ok_iff trimmed).mpr ⟨_, _, _, named, accepted, apart⟩
  | command unknown =>
      have unnamed := Option.eq_none_iff_forall_ne_some.mpr fun keyword found =>
        unknown keyword (Keyword.named_iff.mpr found)
      rw [read_eq_diagnose trimmed]
      · simp only [diagnose, cut, unnamed]
      · intro keyword word argument header named accepted cut'
        cases cut.symm.trans cut'
        exact absurd named (unknown keyword)
  | missing named =>
      rw [read_eq_diagnose trimmed]
      · simp only [diagnose, cut, Keyword.named_iff.mp named]
      · intro keyword word argument header named accepted cut'
        cases cut.symm.trans cut'
  | argument named act refused =>
      rw [read_refused trimmed cut named refused]
      rcases act with rfl | rfl <;> rfl
  | repeatCount named refused => exact read_refused trimmed cut named refused
  | condition named refused => exact read_refused trimmed cut named refused
  | trailing named accepted =>
      rw [read_eq_diagnose trimmed]
      · simp [diagnose, cut, Keyword.named_iff.mp named,
          Keyword.header?_eq_some_iff.mpr accepted, spaced]
      · intro keyword word argument header named accepted cut'
        cases cut.symm.trans cut'
  | separator named accepted close =>
      rw [read_eq_diagnose trimmed]
      · simp [diagnose, cut, Keyword.named_iff.mp named,
          Keyword.header?_eq_some_iff.mpr accepted]
      · intro keyword word argument header _ _ cut'
        cases cut.symm.trans cut'
        exact close

end
end Statement

/-- A line is read as its words say, whether or not it has the form that the grammar asks for; a
line that is refused is refused for its words. -/
theorem Line.content_read_by_words (line : Line) (ink : Text.allBlank line.text.toList = false) :
    (∀ result, Statement.read line.content = result ↔
      Statement.Verdict line.content (Text.words line.content) result) ∧
    (∀ mistake, Statement.read line.content = .error mistake →
      mistake = Statement.diagnose line.content) ∧
    Grammar.line line.content = Statement.form? line.content := by
  have trimmed : Text.Trimmed line.content := Text.trimmed_trim _
  refine ⟨?_, ?_, Grammar.line_eq_form? _⟩
  · intro result
    constructor
    · rintro rfl
      have some := Text.words_ne_nil_of_trimmed trimmed (Text.trim_ne_nil ink)
      obtain ⟨result, verdict⟩ := Statement.exists_verdict line.content some
      rwa [verdict.read_eq trimmed]
    · intro verdict
      exact verdict.read_eq trimmed
  · intro mistake failed
    exact Statement.eq_diagnose_of_read trimmed failed

/-- A space that does not break the line cuts words but no parts, so it is what is wrong here. -/
theorem Line.hard_space_refused :
    Text.allBlank " Move\u00a03".toList = false ∧
      Statement.read (Line.content ⟨1, " Move\u00a03"⟩) = .error (.separator "Move\u00a03") := by
  have ink : Text.allBlank " Move\u00a03".toList = false := by decide
  have words : Text.words (Line.content ⟨1, " Move\u00a03"⟩) = ["Move".toList, "3".toList] := by
    decide
  have named : Keyword.move.Named "Move".toList := rfl
  have accepted : Keyword.move.Accepts "3".toList (.act (.move 3)) :=
    Keyword.header?_eq_some_iff.mp (by decide)
  have close :
      ¬ Statement.SetApart (Line.content ⟨1, " Move\u00a03"⟩) "Move".toList "3".toList := by
    intro apart
    have parts := apart.parts_eq named.solid (Text.solid_of_all rfl)
    exact absurd parts (by decide)
  refine ⟨ink, ((Line.content_read_by_words ⟨1, " Move\u00a03"⟩ ink).1 _).mpr ?_⟩
  rw [words]
  exact .separator named accepted close

end Boardwalk
