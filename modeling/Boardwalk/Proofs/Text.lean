import Boardwalk.Text.Blank
import Boardwalk.Text.Letters
import Boardwalk.Text.Lines
import Mathlib.Data.List.DropRight
import Mathlib.Data.List.TakeWhile

/-!
# Solid words and unbroken lines

What the cutting functions do to texts that were put together from known parts. A
solid text has no blank character, so neither trimming nor cutting into words
changes it. An unbroken line has no line end, so a text of such lines is cut back
into exactly these lines.
-/
namespace Boardwalk.Text

/-- A text that is one word: it is not empty and has no blank character. -/
structure Solid (text : List Char) : Prop where
  ne_nil : text ≠ []
  ink : ∀ c ∈ text, isBlank c = false

structure OneLine (line : List Char) : Prop where
  feed : '\n' ∉ line
  carriage : '\r' ∉ line

instance (line : List Char) : Decidable (OneLine line) :=
  decidable_of_iff ('\n' ∉ line ∧ '\r' ∉ line)
    ⟨fun h => ⟨h.1, h.2⟩, fun h => ⟨h.feed, h.carriage⟩⟩

structure Unbroken (line : List Char) : Prop extends OneLine line where
  tab : '\t' ∉ line

theorem isBlank_of_isDigit {c : Char} (h : c.isDigit = true) : isBlank c = false := by
  have bounds : 48 ≤ c.toNat ∧ c.toNat ≤ 57 := by
    simp only [Char.isDigit, Bool.and_eq_true, decide_eq_true_eq] at h
    exact h
  simp only [isBlank, blankRanges, List.any_cons, List.any_nil, Bool.or_false, Bool.or_eq_false_iff,
    Bool.and_eq_false_iff, decide_eq_false_iff_not]
  omega

theorem solid_of_all {text : List Char}
    (h : (!text.isEmpty && text.all fun c => !isBlank c) = true) : Solid text := by
  rw [Bool.and_eq_true, List.all_eq_true] at h
  refine ⟨by simpa using h.1, ?_⟩
  intro c hc
  simpa using h.2 c hc

theorem Solid.ne_of_mem {text : List Char} (h : Solid text) {c d : Char} (hc : c ∈ text)
    (hd : isBlank d = true) : c ≠ d := by
  rintro rfl
  exact Bool.noConfusion ((h.ink c hc).symm.trans hd)

theorem isBlank_of_bounds {c : Char} (low : 65 ≤ c.toNat) (high : c.toNat ≤ 122) :
    isBlank c = false := by
  simp only [isBlank, blankRanges, List.any_cons, List.any_nil, Bool.or_false, Bool.or_eq_false_iff,
    Bool.and_eq_false_iff, decide_eq_false_iff_not]
  omega

theorem isBlank_toLower (c : Char) : isBlank c.toLower = isBlank c := by
  by_cases upper : c.val ≥ 'A'.val ∧ c.val ≤ 'Z'.val
  · have low : 65 ≤ c.toNat := UInt32.le_iff_toNat_le.mp upper.1
    have high : c.toNat ≤ 90 := UInt32.le_iff_toNat_le.mp upper.2
    have value : c.toLower.toNat = c.toNat + 32 := by
      apply (congrArg Char.toNat (dif_pos upper)).trans
      change (c.toNat + 32) % 2 ^ 32 = c.toNat + 32
      omega
    rw [isBlank_of_bounds low (by omega), isBlank_of_bounds (by omega) (by omega)]
  · exact congrArg isBlank (dif_neg upper)

theorem sameLetters_iff {a b : List Char} : sameLetters a b = true ↔ lowered a = lowered b :=
  beq_iff_eq

/-- Case makes no difference to whether a text is solid. -/
theorem Solid.of_sameLetters {a b : List Char} (h : Solid b) (same : sameLetters a b = true) :
    Solid a := by
  have letters := sameLetters_iff.mp same
  constructor
  · rintro rfl
    exact h.ne_nil (List.map_eq_nil_iff.mp letters.symm)
  · intro c hc
    have lower : c.toLower ∈ lowered b := letters ▸ List.mem_map_of_mem hc
    obtain ⟨d, hd, found⟩ := List.mem_map.mp lower
    rw [← isBlank_toLower, ← found, isBlank_toLower]
    exact h.ink d hd

theorem Solid.splitOnP_eq {cut : Char → Bool} (blank : ∀ c, cut c = true → isBlank c = true)
    {text : List Char} (h : Solid text) : text.splitOnP cut = [text] := by
  apply List.splitOnP_eq_singleton
  intro c hc
  cases hcut : cut c with
  | false => rfl
  | true => exact absurd rfl (h.ne_of_mem hc (blank c hcut))

theorem filter_splitOnP_append {cut : Char → Bool} {gap : List Char}
    (cuts : ∀ c ∈ gap, cut c = true) (rest : List Char) :
    ((gap ++ rest).splitOnP cut).filter (fun piece => !piece.isEmpty) =
      (rest.splitOnP cut).filter fun piece => !piece.isEmpty := by
  induction gap with
  | nil => rfl
  | cons c gap ih =>
      rw [List.cons_append, List.splitOnP_cons_eq_if_modifyHead,
        if_pos (cuts c List.mem_cons_self), List.filter_cons]
      exact ih fun d hd => cuts d (List.mem_cons_of_mem c hd)

/-- Two solid parts with a gap between them are cut back into the two parts. -/
theorem filter_splitOnP_pair {cut : Char → Bool} {word gap argument : List Char}
    (blank : ∀ c, cut c = true → isBlank c = true) (ne : gap ≠ [])
    (cuts : ∀ c ∈ gap, cut c = true) (hw : Solid word) (ha : Solid argument) :
    ((word ++ (gap ++ argument)).splitOnP cut).filter (fun piece => !piece.isEmpty) =
      [word, argument] := by
  obtain ⟨c, gap, rfl⟩ := List.exists_cons_of_ne_nil ne
  have rest : ∀ d ∈ gap, cut d = true := fun d hd => cuts d (List.mem_cons_of_mem c hd)
  rw [List.cons_append, List.splitOnP_append_cons _ _ (cuts c List.mem_cons_self),
    List.filter_append, filter_splitOnP_append rest, hw.splitOnP_eq blank, ha.splitOnP_eq blank]
  simp [hw.ne_nil, ha.ne_nil]

theorem dropWhile_isBlank_of_head {text : List Char} (ne : text ≠ [])
    (h : isBlank (text.head ne) = false) : text.dropWhile isBlank = text := by
  cases text with
  | nil => exact absurd rfl ne
  | cons c rest => rw [List.dropWhile_cons, if_neg (by simpa using h)]

/-- Indentation is trimmed off a text that starts and ends with ink, and nothing else is. -/
theorem trim_indent_append (width : Nat) {text : List Char} (ne : text ≠ [])
    (first : isBlank (text.head ne) = false) (last : isBlank (text.getLast ne) = false) :
    trim (List.replicate width ' ' ++ text) = text := by
  have start : trimStart (List.replicate width ' ' ++ text) = text := by
    rw [trimStart, List.dropWhile_append_of_pos]
    · exact dropWhile_isBlank_of_head ne first
    · intro c hc
      rw [List.eq_of_mem_replicate hc]
      decide
  have ne' : text.reverse ≠ [] := by simpa using ne
  have stop : text.reverse.dropWhile isBlank = text.reverse :=
    dropWhile_isBlank_of_head ne' (by simpa using last)
  rw [trim, start, trimEnd, stop, List.reverse_reverse]

/-- A text that neither starts nor ends with a blank character. -/
structure Trimmed (text : List Char) : Prop where
  first : ∀ c ∈ text.head?, isBlank c = false
  last : ∀ c ∈ text.getLast?, isBlank c = false

theorem trim_prefix_trimStart (text : List Char) : trim text <+: trimStart text :=
  List.rdropWhile_prefix isBlank (trimStart text)

theorem trimmed_trim (text : List Char) : Trimmed (trim text) := by
  constructor
  · intro c first
    obtain ⟨rest, kept⟩ := trim_prefix_trimStart text
    have start : (trimStart text).head? = some c := by
      rw [← kept, List.head?_append, first]
      rfl
    have ink := List.head?_dropWhile_not isBlank text
    rw [← trimStart, start] at ink
    exact ink
  · intro c last
    have ne : trim text ≠ [] := by
      intro empty
      rw [empty] at last
      cases last
    have ink := List.rdropWhile_last_not isBlank (trimStart text) ne
    rw [List.getLast?_eq_some_getLast ne] at last
    cases last
    exact Bool.eq_false_iff.mpr ink

theorem Trimmed.eq_nil_of_prefix {text gap rest : List Char} (trimmed : Trimmed text)
    (cut : text = gap ++ rest) (blank : ∀ c ∈ gap, isBlank c = true) : gap = [] := by
  cases gap with
  | nil => rfl
  | cons c gap =>
      have ink := trimmed.first c (by rw [cut]; rfl)
      rw [blank c List.mem_cons_self] at ink
      cases ink

theorem Trimmed.eq_nil_of_suffix {text gap rest : List Char} (trimmed : Trimmed text)
    (cut : text = rest ++ gap) (blank : ∀ c ∈ gap, isBlank c = true) : gap = [] := by
  by_contra ne
  have ink := trimmed.last (gap.getLast ne) (by
    rw [cut, List.getLast?_append, List.getLast?_eq_some_getLast ne]
    rfl)
  rw [blank _ (List.getLast_mem ne)] at ink
  cases ink

theorem words_ne_nil_of_trimmed {text : List Char} (trimmed : Trimmed text) (ne : text ≠ []) :
    words text ≠ [] := by
  obtain ⟨c, rest, rfl⟩ := List.exists_cons_of_ne_nil ne
  have ink := trimmed.first c rfl
  obtain ⟨piece, others, cut⟩ := List.exists_cons_of_ne_nil (List.splitOnP_ne_nil isBlank rest)
  rw [words, List.splitOnP_cons_eq_if_modifyHead, ink, cut]
  simp

theorem trim_ne_nil {text : List Char} (ink : allBlank text = false) : trim text ≠ [] := by
  intro empty
  have blank : ∀ c ∈ trimStart text, isBlank c = true := List.rdropWhile_eq_nil_iff.mp empty
  obtain ⟨c, member, notBlank⟩ := List.all_eq_false.mp ink
  have cut : text.takeWhile isBlank ++ trimStart text = text := List.takeWhile_append_dropWhile
  rw [← cut, List.mem_append] at member
  rcases member with early | late
  · exact notBlank (List.mem_takeWhile_imp early)
  · exact notBlank (blank c late)

theorem splitLines_cons {c : Char} (feed : c ≠ '\n') (carriage : c ≠ '\r') (rest : List Char) :
    splitLines (c :: rest) = (splitLines rest).modifyHead (c :: ·) := by
  rw [splitLines]
  · exact fun tail h => absurd h carriage
  · exact fun h => absurd h carriage
  · exact fun h => absurd h feed

theorem oneLine_nil : OneLine [] := ⟨List.not_mem_nil, List.not_mem_nil⟩

theorem OneLine.cons {c : Char} {line : List Char} (h : OneLine line) (feed : c ≠ '\n')
    (carriage : c ≠ '\r') : OneLine (c :: line) :=
  ⟨List.not_mem_cons_of_ne_of_not_mem feed.symm h.feed,
    List.not_mem_cons_of_ne_of_not_mem carriage.symm h.carriage⟩

/-- What stands on one line goes in front of the first line of a text. -/
theorem OneLine.splitLines_append {line text first : List Char} {others : List (List Char)}
    (h : OneLine line) (cut : splitLines text = first :: others) :
    splitLines (line ++ text) = (line ++ first) :: others := by
  induction line with
  | nil => exact cut
  | cons c line ih =>
      have feed : '\n' ≠ c := List.ne_of_not_mem_cons h.feed
      have carriage : '\r' ≠ c := List.ne_of_not_mem_cons h.carriage
      have later : OneLine line :=
        ⟨List.not_mem_of_not_mem_cons h.feed, List.not_mem_of_not_mem_cons h.carriage⟩
      rw [List.cons_append, splitLines_cons feed.symm carriage.symm, ih later]
      rfl

theorem OneLine.splitLines_eq {line : List Char} (h : OneLine line) :
    splitLines line = [line] := by
  have cut := h.splitLines_append (show splitLines [] = [[]] from rfl)
  rw [List.append_nil] at cut
  exact cut

theorem splitLines_append_feed {line : List Char} (h : OneLine line) (rest : List Char) :
    splitLines (line ++ '\n' :: rest) = line :: splitLines rest := by
  have cut := h.splitLines_append (show splitLines ('\n' :: rest) = [] :: splitLines rest from rfl)
  rw [List.append_nil] at cut
  exact cut

/-- Lines with line feeds between them are cut back into these lines. -/
theorem splitLines_intercalate {first : List Char} {rest : List (List Char)}
    (h : ∀ line ∈ first :: rest, OneLine line) :
    splitLines (List.intercalate ['\n'] (first :: rest)) = first :: rest := by
  have head : OneLine first := h first List.mem_cons_self
  induction rest generalizing first with
  | nil => rw [List.intercalate_singleton, head.splitLines_eq]
  | cons next rest ih =>
      have later : ∀ line ∈ next :: rest, OneLine line := fun line member =>
        h line (List.mem_cons_of_mem first member)
      rw [List.intercalate_cons_cons, List.append_assoc, List.singleton_append,
        splitLines_append_feed head, ih later (later next List.mem_cons_self)]

theorem dropReturns_eq_self {line : List Char} (last : line.getLast? ≠ some '\r') :
    dropReturns line = line := by
  apply List.rdropWhile_eq_self_iff.mpr
  intro ne carriage
  exact last (beq_iff_eq.mp carriage ▸ List.getLast?_eq_some_getLast ne)

theorem OneLine.dropReturns_eq {line : List Char} (h : OneLine line) : dropReturns line = line :=
  dropReturns_eq_self fun last => h.carriage (List.mem_of_getLast? last)

theorem dropReturns_append_replicate (line : List Char) (returns : Nat) :
    dropReturns (line ++ List.replicate returns '\r') = dropReturns line := by
  induction returns with
  | zero => rw [List.replicate_zero, List.append_nil]
  | succ returns ih =>
      rw [List.replicate_succ', ← List.append_assoc, ← ih]
      exact List.rdropWhile_concat_pos _ _ _ rfl

/-- The carriage returns that are dropped are those behind the last other character. -/
theorem dropReturns_eq_iff {written line : List Char} :
    dropReturns written = line ↔
      ∃ returns, written = line ++ List.replicate returns '\r' ∧ line.getLast? ≠ some '\r' := by
  constructor
  · rintro rfl
    have cut : dropReturns written ++ written.rtakeWhile (· == '\r') = written :=
      List.rdropWhile_append_rtakeWhile
    have returns : ∀ c ∈ written.rtakeWhile (· == '\r'), c = '\r' := fun c member =>
      beq_iff_eq.mp (List.mem_rtakeWhile_imp (p := (· == '\r')) member)
    refine ⟨(written.rtakeWhile (· == '\r')).length, ?_, ?_⟩
    · rw [← List.eq_replicate_of_mem returns, cut]
    · intro last
      have ne : dropReturns written ≠ [] := by
        intro empty
        rw [empty] at last
        cases last
      rw [List.getLast?_eq_some_getLast ne] at last
      exact List.rdropWhile_last_not _ written ne (beq_iff_eq.mpr (Option.some.inj last))
  · rintro ⟨returns, rfl, last⟩
    rw [dropReturns_append_replicate, dropReturns_eq_self last]

theorem layoutLines_append_feed {line : List Char} (feed : '\n' ∉ line) (rest : List Char) :
    layoutLines (line ++ '\n' :: rest) = dropReturns line :: layoutLines rest := by
  have cut : (line ++ '\n' :: rest).splitOn '\n' = line :: rest.splitOn '\n' :=
    List.splitOn_append_cons_self_of_not_mem feed rest
  obtain ⟨piece, others, later⟩ := List.exists_cons_of_ne_nil (List.splitOn_ne_nil '\n' rest)
  rw [layoutLines, layoutLines, cut, later]
  simp only [List.getLast?_cons_cons]
  split
  · rw [List.dropLast_cons_of_ne_nil (List.cons_ne_nil _ _), List.map_cons]
  · rw [List.map_cons]

theorem getElem?_dropLast_empty_iff {lines : List (List Char)} {number : Nat}
    {written : List Char} :
    (if lines.getLast? = some [] then lines.dropLast else lines)[number]? = some written ↔
      lines[number]? = some written ∧ (number + 1 = lines.length → written ≠ []) := by
  have atEnd (found : lines[number]? = some written) (stop : number + 1 = lines.length) :
      lines.getLast? = some written := by
    rw [List.getLast?_eq_getElem?, ← stop]
    exact found
  split
  case isTrue empty =>
    rw [List.getElem?_dropLast]
    split
    case isTrue inside =>
      refine ⟨fun found => ⟨found, fun stop => ?_⟩, And.left⟩
      omega
    case isFalse outside =>
      refine ⟨fun found => (by cases found), ?_⟩
      rintro ⟨found, last⟩
      have bound := (List.getElem?_eq_some_iff.mp found).1
      have stop : number + 1 = lines.length := by omega
      exact absurd (Option.some.inj ((atEnd found stop).symm.trans empty)) (last stop)
  case isFalse full =>
    refine ⟨fun found => ⟨found, fun stop empty => ?_⟩, And.left⟩
    exact full (empty ▸ atEnd found stop)

/-- The lines of a layout stand between its line feeds, without the carriage returns at their ends.
Behind a last line feed there is no line. -/
theorem getElem?_layoutLines_iff {text line : List Char} {number : Nat} :
    (layoutLines text)[number]? = some line ↔
      ∃ returns, (text.splitOn '\n')[number]? = some (line ++ List.replicate returns '\r') ∧
        line.getLast? ≠ some '\r' ∧
        (number + 1 = (text.splitOn '\n').length → line ++ List.replicate returns '\r' ≠ []) := by
  simp only [layoutLines, List.getElem?_map, Option.map_eq_some_iff, getElem?_dropLast_empty_iff,
    dropReturns_eq_iff]
  constructor
  · rintro ⟨_, ⟨found, last⟩, returns, rfl, ends⟩
    exact ⟨returns, found, ends, last⟩
  · rintro ⟨returns, found, ends, last⟩
    exact ⟨_, ⟨found, last⟩, returns, rfl, ends⟩

/-- Lines with a line feed behind each are the lines of a layout. -/
theorem layoutLines_flatMap {lines : List (List Char)} (h : ∀ line ∈ lines, OneLine line) :
    layoutLines (lines.flatMap (· ++ ['\n'])) = lines := by
  induction lines with
  | nil => rfl
  | cons line lines ih =>
      have first : OneLine line := h line List.mem_cons_self
      rw [List.flatMap_cons, List.append_assoc, List.singleton_append,
        layoutLines_append_feed first.feed, first.dropReturns_eq,
        ih fun later member => h later (List.mem_cons_of_mem line member)]

theorem expandTabs_of_not_mem (width : Nat) {line : List Char} (h : '\t' ∉ line) :
    expandTabs width line = line := by
  induction line with
  | nil => rfl
  | cons c line ih =>
      have first : '\t' ≠ c := List.ne_of_not_mem_cons h
      rw [← List.singleton_append, expandTabs_append, ih (List.not_mem_of_not_mem_cons h)]
      simp [expandTabs, first.symm]

end Boardwalk.Text
