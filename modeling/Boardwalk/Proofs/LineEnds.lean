import Boardwalk.Proofs.BlankLines
import Mathlib.Data.List.Chain

/-!
# Line ends and tabs

A text may end its lines in three ways, and it may change from one to another: it has
the same lines, as long as no carriage return and line feed that end two lines stand
together. A tab is worth a number of spaces, and a text reads the same with these
spaces written out. There is one way to change the lines by that: if tabs are worth
nothing, tabs between a carriage return and a line feed keep two line ends apart, and
without them there is one. The line that is lost was blank, so only numbers change.
-/
namespace Boardwalk
namespace Text

inductive Ending where
  | feed
  | carriage
  /-- A carriage return and a line feed. -/
  | pair
  deriving DecidableEq

def Ending.chars : Ending → List Char
  | .feed => ['\n']
  | .carriage => ['\r']
  | .pair => ['\r', '\n']

/-- The text of lines with their ends, and of a last line without. -/
def joined : List (List Char × Ending) → List Char → List Char
  | [], last => last
  | (line, ending) :: ended, last => line ++ (ending.chars ++ joined ended last)

/-- Lines whose ends can be told apart when they are joined. -/
structure Joinable (ended : List (List Char × Ending)) (last : List Char) : Prop where
  oneLine : ∀ line ∈ ended.map Prod.fst ++ [last], OneLine line
  apart : ended.IsChain fun before after => before.2 = .carriage → after ≠ ([], .feed)

instance (ended : List (List Char × Ending)) (last : List Char) : Decidable (Joinable ended last) :=
  decidable_of_iff ((∀ line ∈ ended.map Prod.fst ++ [last], OneLine line) ∧
      ended.IsChain fun before after => before.2 = .carriage → after ≠ ([], .feed))
    ⟨fun h => ⟨h.1, h.2⟩, fun h => ⟨h.oneLine, h.apart⟩⟩

def tabless (width : Nat) (source : String) : String :=
  String.ofList (expandTabs width source.toList)

/-- Whether nothing but tabs stands between a carriage return and a line feed somewhere. -/
def Bridged (text : List Char) : Prop :=
  ∃ before count after,
    text = before ++ '\r' :: (List.replicate (count + 1) '\t' ++ '\n' :: after)

end Text

/-- The lines of a joined text, which stands behind a line end. A line is added if the text does not
have it: it is empty, and the line ends around it are one. -/
def Spaced.ofJoined : Text.Ending → List (List Char × Text.Ending) → List Char → List Spaced
  | _, [], last => [.old last]
  | before, (line, ending) :: ended, last =>
      (if before = .carriage ∧ (line, ending) = ([], .feed) then .added line else .old line) ::
        ofJoined ending ended last

namespace Spaced

theorem map_line_ofJoined (before : Text.Ending) (ended : List (List Char × Text.Ending))
    (last : List Char) : (ofJoined before ended last).map line = ended.map Prod.fst ++ [last] := by
  induction ended generalizing before with
  | nil => rfl
  | cons entry ended ih =>
      obtain ⟨text, ending⟩ := entry
      rw [ofJoined, List.map_cons, ih ending]
      split <;> rfl

theorem eq_nil_of_added_mem_ofJoined {before : Text.Ending}
    {ended : List (List Char × Text.Ending)} {last line : List Char}
    (member : .added line ∈ ofJoined before ended last) : line = [] := by
  induction ended generalizing before with
  | nil => cases List.mem_singleton.mp member
  | cons entry ended ih =>
      obtain ⟨text, ending⟩ := entry
      rcases List.mem_cons.mp member with first | later
      · split at first
        case isTrue lost =>
          cases first
          exact (Prod.mk.inj lost.2).1
        · cases first
      · exact ih later

theorem olds_map_old (lines : List (List Char)) : olds (lines.map old) = lines := by
  rw [olds, List.filterMap_map]
  exact List.filterMap_some

theorem shifted_map_old (lines : List (List Char)) (number : Nat) :
    shifted (lines.map old) number = number := by
  induction lines generalizing number with
  | nil => cases number <;> rfl
  | cons line lines ih =>
      cases number with
      | zero => exact shifted_zero _
      | succ number => rw [List.map_cons, shifted_old, ih]

end Spaced

namespace Text

theorem Ending.splitLines_append (ending : Ending) {text : List Char}
    (apart : ending = .carriage → text.head? ≠ some '\n') :
    splitLines (ending.chars ++ text) = [] :: splitLines text := by
  cases ending with
  | feed => rfl
  | pair => rfl
  | carriage =>
      cases text with
      | nil => rfl
      | cons c text =>
          rw [chars, List.singleton_append, splitLines]
          rintro rest ⟨⟩
          exact apart rfl rfl

theorem OneLine.head?_ne {line : List Char} (h : OneLine line) : line.head? ≠ some '\n' :=
  fun first => h.feed (List.mem_of_mem_head? first)

theorem OneLine.head?_append_ne {line : List Char} {ending : Ending} (h : OneLine line)
    (apart : (line, ending) ≠ ([], .feed)) (text : List Char) :
    (line ++ (ending.chars ++ text)).head? ≠ some '\n' := by
  cases line with
  | cons c line => exact h.head?_ne
  | nil =>
      cases ending with
      | feed => exact absurd rfl apart
      | carriage => simp [Ending.chars]
      | pair => simp [Ending.chars]

/-- A joined text is cut back into its lines, less those whose line ends run together. -/
theorem splitLines_append_joined {ended : List (List Char × Ending)} {last : List Char}
    (oneLine : ∀ line ∈ ended.map Prod.fst ++ [last], OneLine line) (before : Ending) :
    splitLines (before.chars ++ joined ended last) =
      [] :: Spaced.olds (Spaced.ofJoined before ended last) := by
  -- A line feed that is first belongs to a carriage return in front, so the statement has to say
  -- what is there.
  induction ended generalizing before with
  | nil =>
      have line : OneLine last := oneLine last List.mem_cons_self
      rw [joined, before.splitLines_append fun _ => line.head?_ne, line.splitLines_eq]
      rfl
  | cons entry ended ih =>
      obtain ⟨line, ending⟩ := entry
      obtain ⟨first, later⟩ := List.forall_mem_cons.mp oneLine
      have rest := ih later ending
      rw [joined, Spaced.ofJoined]
      split
      case isTrue lost =>
        obtain ⟨rfl, same⟩ := lost
        cases same
        exact rest
      case isFalse kept =>
        have apart : before = .carriage → (line, ending) ≠ ([], .feed) :=
          fun alone same => kept ⟨alone, same⟩
        rw [before.splitLines_append fun alone => first.head?_append_ne (apart alone) _,
          first.splitLines_append rest, List.append_nil]
        rfl

theorem splitLines_joined {ended : List (List Char × Ending)} {last : List Char}
    (oneLine : ∀ line ∈ ended.map Prod.fst ++ [last], OneLine line) :
    splitLines (joined ended last) = Spaced.olds (Spaced.ofJoined .feed ended last) :=
  List.tail_eq_of_cons_eq (splitLines_append_joined oneLine .feed)

namespace Joinable

variable {ended : List (List Char × Ending)} {last : List Char}

theorem cons {line : List Char} {ending : Ending} (h : Joinable ended last)
    (oneLine : OneLine line)
    (apart : ending = .carriage → ∀ next ∈ ended.head?, next ≠ ([], .feed)) :
    Joinable ((line, ending) :: ended) last where
  oneLine := List.forall_mem_cons.mpr ⟨oneLine, h.oneLine⟩
  apart := List.isChain_cons.mpr ⟨fun next first alone => apart alone next first, h.apart⟩

theorem tail {entry : List Char × Ending} (h : Joinable (entry :: ended) last) :
    Joinable ended last where
  oneLine := fun line member => h.oneLine line (List.mem_cons_of_mem _ member)
  apart := (List.isChain_cons.mp h.apart).2

theorem head_ne {line : List Char} {ending : Ending} (h : Joinable ((line, ending) :: ended) last)
    (alone : ending = .carriage) : ∀ next ∈ ended.head?, next ≠ ([], .feed) :=
  fun next first => (List.isChain_cons.mp h.apart).1 next first alone

/-- No line is lost. -/
theorem ofJoined_eq (h : Joinable ended last) (before : Ending)
    (first : before = .carriage → ∀ entry ∈ ended.head?, entry ≠ ([], .feed)) :
    Spaced.ofJoined before ended last = (ended.map Prod.fst ++ [last]).map .old := by
  induction ended generalizing before with
  | nil => rfl
  | cons entry ended ih =>
      obtain ⟨line, ending⟩ := entry
      rw [Spaced.ofJoined, if_neg fun lost => first lost.1 _ rfl lost.2,
        ih h.tail ending h.head_ne]
      rfl

/-- Joined lines are cut back into these lines, whatever ends them. -/
theorem splitLines_eq (h : Joinable ended last) :
    splitLines (joined ended last) = ended.map Prod.fst ++ [last] := by
  rw [splitLines_joined h.oneLine, h.ofJoined_eq .feed (by rintro ⟨⟩), Spaced.olds_map_old]

end Joinable

/-- Every text is made of lines that can be told apart. -/
theorem exists_joined (text : List Char) :
    ∃ ended last, Joinable ended last ∧ joined ended last = text := by
  fun_induction splitLines text with
  | case1 => exact ⟨[], [], ⟨by simpa using oneLine_nil, .nil⟩, rfl⟩
  | case2 rest ih =>
      obtain ⟨ended, last, join, rfl⟩ := ih
      exact ⟨([], .pair) :: ended, last, join.cons oneLine_nil (by rintro ⟨⟩), rfl⟩
  | case3 rest single ih =>
      obtain ⟨ended, last, join, rfl⟩ := ih
      refine ⟨([], .carriage) :: ended, last, join.cons oneLine_nil ?_, rfl⟩
      rintro - _ first rfl
      obtain ⟨ended, rfl⟩ := List.head?_eq_some_iff.mp first
      exact single _ rfl
  | case4 rest ih =>
      obtain ⟨ended, last, join, rfl⟩ := ih
      exact ⟨([], .feed) :: ended, last, join.cons oneLine_nil (by rintro ⟨⟩), rfl⟩
  | case5 c rest _ carriage feed ih =>
      obtain ⟨ended, last, join, rfl⟩ := ih
      cases ended with
      | nil =>
          have line := (join.oneLine last List.mem_cons_self).cons feed carriage
          exact ⟨[], c :: last, ⟨by simpa using line, .nil⟩, rfl⟩
      | cons entry ended =>
          obtain ⟨line, ending⟩ := entry
          have longer := (join.oneLine line List.mem_cons_self).cons feed carriage
          exact ⟨(c :: line, ending) :: ended, last, join.tail.cons longer join.head_ne, rfl⟩

theorem mem_of_mem_expandTabs {width : Nat} {c : Char} {text : List Char}
    (member : c ∈ expandTabs width text) : c = ' ' ∨ c ∈ text ∧ c ≠ '\t' := by
  obtain ⟨d, found, written⟩ := List.mem_flatMap.mp member
  split at written
  · exact .inl (List.eq_of_mem_replicate written)
  case isFalse other =>
    rw [List.mem_singleton.mp written]
    exact .inr ⟨found, other⟩

theorem OneLine.expandTabs {line : List Char} (h : OneLine line) (width : Nat) :
    OneLine (expandTabs width line) := by
  constructor
  · intro member
    rcases mem_of_mem_expandTabs member with space | ⟨found, -⟩
    · cases space
    · exact h.feed found
  · intro member
    rcases mem_of_mem_expandTabs member with space | ⟨found, -⟩
    · cases space
    · exact h.carriage found

theorem expandTabs_expandTabs (width other : Nat) (text : List Char) :
    expandTabs other (expandTabs width text) = expandTabs width text := by
  apply expandTabs_of_not_mem
  intro member
  rcases mem_of_mem_expandTabs member with space | ⟨-, ne⟩
  · cases space
  · exact ne rfl

theorem allBlank_expandTabs (width : Nat) (text : List Char) :
    allBlank (expandTabs width text) = allBlank text := by
  rw [allBlank, allBlank, expandTabs, List.all_flatMap]
  congr 1
  funext c
  split
  case isTrue tab =>
    have blank : isBlank ' ' = true ∧ isBlank '\t' = true := by decide
    simp [tab, blank]
  · simp

/-- A line that expands to nothing has tabs and nothing else. -/
theorem exists_tabs_of_expandTabs_eq_nil {width : Nat} {line : List Char}
    (empty : expandTabs width line = []) :
    ∃ count, line = List.replicate count '\t' ∧ (count = 0 ∨ width = 0) := by
  have tabs : ∀ c ∈ line, c = '\t' ∧ width = 0 := by
    intro c member
    have written := List.flatMap_eq_nil_iff.mp empty c member
    split at written
    case isTrue tab => exact ⟨tab, by simpa using written⟩
    · cases written
  refine ⟨line.length, List.eq_replicate_of_mem fun c member => (tabs c member).1, ?_⟩
  cases line with
  | nil => exact .inl rfl
  | cons c line => exact .inr (tabs c List.mem_cons_self).2

def tablessEnded (width : Nat) (ended : List (List Char × Ending)) : List (List Char × Ending) :=
  ended.map (Prod.map (expandTabs width) id)

theorem map_fst_tablessEnded (width : Nat) (ended : List (List Char × Ending)) (last : List Char) :
    (tablessEnded width ended).map Prod.fst ++ [expandTabs width last] =
      (ended.map Prod.fst ++ [last]).map (expandTabs width) := by
  simp [tablessEnded]

/-- Tabs do not touch line ends. -/
theorem expandTabs_joined (width : Nat) (ended : List (List Char × Ending)) (last : List Char) :
    expandTabs width (joined ended last) =
      joined (tablessEnded width ended) (expandTabs width last) := by
  induction ended with
  | nil => rfl
  | cons entry ended ih =>
      obtain ⟨line, ending⟩ := entry
      have chars : expandTabs width ending.chars = ending.chars := by
        apply expandTabs_of_not_mem
        cases ending <;> decide
      rw [joined, expandTabs_append, expandTabs_append, chars, ih]
      rfl

theorem Bridged.append_left {text : List Char} (h : Bridged text) (start : List Char) :
    Bridged (start ++ text) := by
  obtain ⟨before, count, after, rfl⟩ := h
  exact ⟨start ++ before, count, after, (List.append_assoc _ _ _).symm⟩

theorem Joinable.oneLine_tablessEnded {ended : List (List Char × Ending)} {last : List Char}
    (h : Joinable ended last) (width : Nat) :
    ∀ line ∈ (tablessEnded width ended).map Prod.fst ++ [Text.expandTabs width last],
      OneLine line := by
  rw [map_fst_tablessEnded]
  exact List.forall_mem_map.mpr fun line member => (h.oneLine line member).expandTabs width

/-- Line ends that can be told apart still can when tabs are expanded, unless tabs were all that
kept two of them apart. -/
theorem Joinable.tablessEnded {width : Nat} {ended : List (List Char × Ending)}
    {last : List Char} (h : Joinable ended last)
    (kept : 0 < width ∨ ¬Bridged (joined ended last)) :
    Joinable (tablessEnded width ended) (expandTabs width last) := by
  refine ⟨h.oneLine_tablessEnded width, ?_⟩
  induction ended with
  | nil => exact .nil
  | cons entry ended ih =>
      obtain ⟨line, ending⟩ := entry
      have later : 0 < width ∨ ¬Bridged (joined ended last) := by
        refine kept.imp_right fun apart bridged => apart ?_
        rw [joined, ← List.append_assoc]
        exact bridged.append_left _
      refine List.isChain_cons.mpr ⟨?_, ih h.tail later⟩
      rintro next first (rfl : ending = .carriage) rfl
      obtain ⟨⟨text, ending⟩, found, expanded⟩ := Option.map_eq_some_iff.mp
        (List.head?_map.symm.trans first)
      obtain ⟨ended, rfl⟩ := List.head?_eq_some_iff.mp found
      obtain ⟨empty, rfl⟩ := Prod.mk.inj expanded
      obtain ⟨count, rfl, none⟩ := exists_tabs_of_expandTabs_eq_nil empty
      cases count with
      | zero => exact h.head_ne rfl _ rfl rfl
      | succ count =>
          rcases kept with wide | apart
          · omega
          · exact apart ⟨line, count, joined ended last, rfl⟩

theorem inked_map_expandTabs (width first : Nat) (lines : List (List Char)) :
    inked first (lines.map (expandTabs width)) =
      (inked first lines).map (Prod.map (expandTabs width) id) := by
  rw [inked, ← List.map_zipIdx, List.filter_map, inked]
  congr 2
  funext numbered
  exact congrArg (!·) (allBlank_expandTabs width numbered.1)

end Text

namespace Line

theorem pairwise_ofSource (tabWidth : Nat) (source : String) :
    (ofSource tabWidth source).Pairwise fun before after => before.number < after.number := by
  have numbers : ((Text.splitLines source.toList).zipIdx 1).Pairwise fun a b => a.2 < b.2 := by
    rw [← List.pairwise_map, List.zipIdx_map_snd]
    exact List.pairwise_lt_range'
  rw [ofSource, List.pairwise_map]
  exact numbers.filter _

theorem mem_ofSource_iff {tabWidth : Nat} {source : String} {line : Line} :
    line ∈ ofSource tabWidth source ↔
      ∃ index chars, (Text.splitLines source.toList)[index]? = some chars ∧
        Text.allBlank chars = false ∧
        line = ⟨index + 1, String.ofList (Text.expandTabs tabWidth chars)⟩ := by
  simp only [ofSource, List.mem_map, List.mem_filter, ofChars]
  constructor
  · rintro ⟨⟨chars, number⟩, ⟨member, ink⟩, rfl⟩
    obtain ⟨first, found⟩ := List.mk_mem_zipIdx_iff_le_and_getElem?_sub.mp member
    obtain ⟨index, rfl⟩ := Nat.exists_eq_add_of_le' first
    exact ⟨index, chars, found, by simpa using ink, rfl⟩
  · rintro ⟨index, chars, found, ink, rfl⟩
    have member : (chars, index + 1) ∈ (Text.splitLines source.toList).zipIdx 1 :=
      List.mk_mem_zipIdx_iff_le_and_getElem?_sub.mpr ⟨Nat.le_add_left 1 index, found⟩
    exact ⟨(chars, index + 1), ⟨member, by simpa using ink⟩, rfl⟩

theorem ofChars_comp_expandTabs (tabWidth other : Nat) :
    ofChars other ∘ Prod.map (Text.expandTabs tabWidth) id = ofChars tabWidth := by
  funext numbered
  simp only [Function.comp, ofChars, Prod.map, Text.expandTabs_expandTabs, id]

end Line

/-- The lines of a text with spaces for tabs. A line is added if the text with spaces for tabs does
not have it. -/
def Spaced.tabless (width : Nat) (ended : List (List Char × Text.Ending)) (last : List Char) :
    List Spaced :=
  ofJoined .feed (Text.tablessEnded width ended) (Text.expandTabs width last)

theorem Spaced.map_line_tabless (width : Nat) (ended : List (List Char × Text.Ending))
    (last : List Char) :
    (tabless width ended last).map line =
      (ended.map Prod.fst ++ [last]).map (Text.expandTabs width) := by
  rw [tabless, map_line_ofJoined, Text.map_fst_tablessEnded]

section
variable {ended : List (List Char × Text.Ending)} {last : List Char}

/-- A text with tabs has the lines that it has with spaces for them. The numbers count the lines that
are lost without tabs. -/
theorem Line.ofSource_joined (tabWidth other : Nat) (join : Text.Joinable ended last) :
    Line.ofSource tabWidth (String.ofList (Text.joined ended last)) =
      (Line.ofSource other (Text.tabless tabWidth (String.ofList (Text.joined ended last)))).map
        (Line.renumber (Spaced.shifted (Spaced.tabless tabWidth ended last))) := by
  have blank : ∀ line, .added line ∈ Spaced.tabless tabWidth ended last →
      Text.allBlank line = true := by
    intro line member
    rw [Spaced.eq_nil_of_added_mem_ofJoined member]
    rfl
  have cut : Text.splitLines (Text.expandTabs tabWidth (Text.joined ended last)) =
      Spaced.olds (Spaced.tabless tabWidth ended last) := by
    rw [Text.expandTabs_joined, Text.splitLines_joined (join.oneLine_tablessEnded tabWidth)]
    rfl
  have inked := Spaced.inked_map_line blank
  rw [Spaced.map_line_tabless, Text.inked_map_expandTabs, ← cut] at inked
  have lines := congrArg (List.map (Line.ofChars other)) inked
  rw [List.map_map, List.map_map, Line.ofChars_comp_expandTabs] at lines
  rw [Line.ofSource, Line.ofSource, Text.tabless, String.toList_ofList, String.toList_ofList,
    join.splitLines_eq, List.map_map]
  exact lines

theorem Program.parseWith_joined (tabWidth other : Nat) (join : Text.Joinable ended last) :
    parseWith tabWidth (String.ofList (Text.joined ended last)) =
      (parseWith other (Text.tabless tabWidth (String.ofList (Text.joined ended last)))).mapError
        (ParseError.renumber (Spaced.shifted (Spaced.tabless tabWidth ended last))) := by
  rw [parseWith, parseWith, Reading.ofSource, Reading.ofSource,
    Line.ofSource_joined tabWidth other join, Reading.ofLines_renumber, Reading.renumber]

end

theorem Line.ofSource_tabless {tabWidth : Nat} {source : String} (other : Nat)
    (kept : 0 < tabWidth ∨ ¬Text.Bridged source.toList) :
    Line.ofSource other (Text.tabless tabWidth source) = Line.ofSource tabWidth source := by
  obtain ⟨ended, last, join, text⟩ := Text.exists_joined source.toList
  rw [← text] at kept
  obtain rfl : String.ofList (Text.joined ended last) = source := by
    rw [text, String.ofList_toList]
  have same : Spaced.shifted (Spaced.tabless tabWidth ended last) = id := by
    rw [Spaced.tabless, (join.tablessEnded kept).ofJoined_eq .feed (by rintro ⟨⟩)]
    exact funext (Spaced.shifted_map_old _)
  rw [Line.ofSource_joined tabWidth other join, same]
  exact (List.map_id _).symm

/-- Lines are read one by one, with spaces for tabs and under their own numbers, but for the blank
ones. It makes no difference which line ends are between them, nor whether spaces are written for
tabs. Only where tabs that are worth nothing are all that stands between a carriage return and a
line feed, the line that they are on is lost without them, and it counts in the numbers behind. -/
theorem Program.line_ends_and_tabs (tabWidth : Nat) :
    (∀ ended last, Text.Joinable ended last →
      let lines := ended.map Prod.fst ++ [last]
      let read := Line.ofSource tabWidth (String.ofList (Text.joined ended last))
      read.Pairwise (fun before after => before.number < after.number) ∧
      ∀ line, line ∈ read ↔
        ∃ index chars, lines[index]? = some chars ∧ Text.allBlank chars = false ∧
          line = ⟨index + 1, String.ofList (Text.expandTabs tabWidth chars)⟩) ∧
    (∀ ended other last, Text.Joinable ended last → Text.Joinable other last →
      ended.map Prod.fst = other.map Prod.fst →
      parseWith tabWidth (String.ofList (Text.joined ended last)) =
        parseWith tabWidth (String.ofList (Text.joined other last))) ∧
    (∀ source otherWidth, 0 < tabWidth ∨ ¬Text.Bridged source.toList →
      parseWith tabWidth source = parseWith otherWidth (Text.tabless tabWidth source)) ∧
    (∀ source otherWidth, ∃ ended last, Text.Joinable ended last ∧
      String.ofList (Text.joined ended last) = source ∧
      let lost := Spaced.addedBefore (Spaced.tabless tabWidth ended last)
      parseWith tabWidth source =
        (parseWith otherWidth (Text.tabless tabWidth source)).mapError
          fun error => ⟨error.line + lost error.line, error.mistake⟩) := by
  refine ⟨?_, ?_, ?_, ?_⟩
  · intro ended last join lines read
    refine ⟨Line.pairwise_ofSource tabWidth _, ?_⟩
    intro line
    rw [Line.mem_ofSource_iff, String.toList_ofList, join.splitLines_eq]
  · intro ended other last join join' same
    rw [parseWith, parseWith, Reading.ofSource, Reading.ofSource, Line.ofSource, Line.ofSource,
      String.toList_ofList, String.toList_ofList, join.splitLines_eq, join'.splitLines_eq, same]
  · intro source otherWidth kept
    rw [parseWith, parseWith, Reading.ofSource, Reading.ofSource,
      Line.ofSource_tabless otherWidth kept]
  · intro source otherWidth
    obtain ⟨ended, last, join, text⟩ := Text.exists_joined source.toList
    obtain rfl : String.ofList (Text.joined ended last) = source := by
      rw [text, String.ofList_toList]
    exact ⟨ended, last, join, rfl, parseWith_joined tabWidth otherWidth join⟩

/-- The lone carriage return, the blank line and the pair behind it are two line ends. -/
theorem Program.mixed_line_ends_refused :
    let mixed : List (List Char × Text.Ending) :=
      [("Repeat 2".toList, .pair), ("\tMove 1".toList, .carriage), ([], .pair)]
    let feeds : List (List Char × Text.Ending) :=
      [("Repeat 2".toList, .feed), ("\tMove 1".toList, .feed), ([], .feed)]
    let source := String.ofList (Text.joined mixed "\tFly".toList)
    source = "Repeat 2\r\n\tMove 1\r\r\n\tFly" ∧
    ⟨4, "    Fly"⟩ ∈ Line.ofSource 4 source ∧
    parseWith 4 source = parseWith 4 (String.ofList (Text.joined feeds "\tFly".toList)) ∧
    parseWith 4 source = parseWith 1 (Text.tabless 4 source) ∧
    parseWith 4 source = .error ⟨4, .command "Fly"⟩ := by
  intro mixed feeds source
  obtain ⟨lines, ends, tabs, -⟩ := line_ends_and_tabs 4
  have join : Text.Joinable mixed "\tFly".toList := by decide
  have text : source = "Repeat 2\r\n\tMove 1\r\r\n\tFly" := by decide
  have refused : parseWith 4 "Repeat 2\r\n\tMove 1\r\r\n\tFly" = .error ⟨4, .command "Fly"⟩ := rfl
  refine ⟨text, ?_, ?_, ?_, text ▸ refused⟩
  · exact ((lines mixed _ join).2 _).mpr ⟨3, "\tFly".toList, rfl, by decide, by decide⟩
  · exact ends mixed feeds _ join (by decide) rfl
  · exact tabs source 1 (.inl (by decide))

/-- Without its tab the text has one line end for two. -/
theorem Program.lost_line_end :
    let source := "\r\t\nFly"
    Text.tabless 0 source = "\r\nFly" ∧
    parseWith 0 source = .error ⟨3, .command "Fly"⟩ ∧
    parseWith 4 (Text.tabless 0 source) = .error ⟨2, .command "Fly"⟩ ∧
    ¬∀ source width other, parseWith width source = parseWith other (Text.tabless width source) := by
  have early : parseWith 4 (Text.tabless 0 "\r\t\nFly") = .error ⟨2, .command "Fly"⟩ := rfl
  have late : parseWith 0 "\r\t\nFly" = .error ⟨3, .command "Fly"⟩ := rfl
  refine ⟨by decide, late, early, ?_⟩
  intro same
  have lines := same "\r\t\nFly" 0 4
  rw [early, late] at lines
  cases lines

end Boardwalk
