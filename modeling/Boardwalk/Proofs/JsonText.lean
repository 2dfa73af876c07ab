import Boardwalk.Json.Printer
import Boardwalk.Json.Reader

/-!
# JSON text is read back

The text of a value is read as that value, however it is laid out, as long as only
white space stands between its parts. Every string survives, since each character is
either written as it is or has an escape of its own. A literal that is kept by its
spelling is left out: nothing makes its spelling that of a number.
-/
namespace Boardwalk.Json

mutual

/-- Whether all numbers of a value are integers. -/
def plain : Json → Bool
  | .real _ => false
  | .arr items => plainItems items
  | .obj fields => plainFields fields
  | .null | .bool _ | .int _ | .str _ => true

def plainItems : List Json → Bool
  | [] => true
  | item :: rest => item.plain && plainItems rest

def plainFields : List (String × Json) → Bool
  | [] => true
  | (_, value) :: rest => value.plain && plainFields rest

end

/-- A layout with nothing but white space between the parts of a value. -/
structure Style.Spaced (style : Style) : Prop where
  lineBreak : ∀ depth, ∀ c ∈ (style.lineBreak depth).toList, isSpace c = true
  colon : ∃ gap, style.colon.toList = ':' :: gap ∧ ∀ c ∈ gap, isSpace c = true

/-- A text that does not go on with a number that stands before it. -/
def Boundary (text : List Char) : Prop :=
  ∀ c ∈ text.head?, c.isDigit = false ∧ c ≠ '.' ∧ c ≠ 'e' ∧ c ≠ 'E'

theorem skipSpace_append {gap : List Char} (h : ∀ c ∈ gap, isSpace c = true) (text : List Char) :
    skipSpace (gap ++ text) = skipSpace text :=
  List.dropWhile_append_of_pos h

theorem skipSpace_cons {c : Char} (h : isSpace c = false) (text : List Char) :
    skipSpace (c :: text) = c :: text := by
  rw [skipSpace, List.dropWhile_cons, h]
  rfl

theorem boundary_nil : Boundary [] := by
  intro c none
  cases none

theorem boundary_cons {c : Char} (h : c.isDigit = false ∧ c ≠ '.' ∧ c ≠ 'e' ∧ c ≠ 'E')
    (rest : List Char) : Boundary (c :: rest) := by
  intro d first
  cases first
  exact h

theorem boundary_append {gap text : List Char} (h : ∀ c ∈ gap, isSpace c = true)
    (rest : Boundary text) : Boundary (gap ++ text) := by
  cases gap with
  | nil => exact rest
  | cons space gap =>
      intro c first
      cases first
      have space' := h space List.mem_cons_self
      simp only [isSpace, Bool.or_eq_true, beq_iff_eq] at space'
      rcases space' with ((rfl | rfl) | rfl) | rfl <;> decide

theorem hexDigit?_digitChar {n : Nat} (h : n < 16) : hexDigit? (Nat.digitChar n) = some n := by
  have all : ∀ m : Fin 16, hexDigit? (Nat.digitChar m) = some m.val := by decide
  exact all ⟨n, h⟩

theorem unit?_unicodeEscape {n : Nat} (h : n < 0x20) :
    unit? '0' '0' (Nat.digitChar (n / 16)) (Nat.digitChar (n % 16)) = some n := by
  have zero : hexDigit? '0' = some 0 := rfl
  have high : hexDigit? (Nat.digitChar (n / 16)) = some (n / 16) := hexDigit?_digitChar (by omega)
  have low : hexDigit? (Nat.digitChar (n % 16)) = some (n % 16) := hexDigit?_digitChar (by omega)
  have whole : n / 16 * 16 + n % 16 = n := by omega
  simp [unit?, zero, high, low, whole]

theorem stringRest_unicodeEscape {c : Char} (h : c.toNat < 0x20) (taken rest : List Char) :
    stringRest taken (unicodeEscape c ++ rest) = stringRest (c :: taken) rest := by
  have leading : isLeading c.toNat = false := by
    simp only [isLeading, Bool.and_eq_false_iff, decide_eq_false_iff_not]
    omega
  have trailing : isTrailing c.toNat = false := by
    simp only [isTrailing, Bool.and_eq_false_iff, decide_eq_false_iff_not]
    omega
  simp only [unicodeEscape, List.cons_append, List.nil_append, stringRest, unit?_unicodeEscape h,
    leading, trailing, Char.ofNat_toNat, Bool.false_eq_true, if_false]

/-- A character is read as itself, whether or not it was escaped. -/
theorem stringRest_escape (c : Char) (taken rest : List Char) :
    stringRest taken (escape c ++ rest) = stringRest (c :: taken) rest := by
  unfold escape
  split
  case h_8 mark slash _ _ _ _ _ =>
    split
    case isTrue control => exact stringRest_unicodeEscape control taken rest
    case isFalse shown =>
      rw [List.singleton_append, stringRest, if_neg shown]
      · exact mark
      · exact fun _ _ _ _ _ same => absurd same slash
      · exact fun _ _ same => absurd same slash
  all_goals rfl

theorem stringRest_escaped (text taken rest : List Char) :
    stringRest taken (text.flatMap escape ++ '"' :: rest) =
      some (String.ofList (taken.reverse ++ text), rest) := by
  induction text generalizing taken with
  | nil =>
      rw [List.flatMap_nil, List.nil_append, stringRest, List.append_nil]
  | cons c text ih =>
      rw [List.flatMap_cons, List.append_assoc, stringRest_escape, ih, List.reverse_cons,
        List.append_assoc, List.singleton_append]

theorem toList_quoted (text : String) :
    (quoted text).toList = '"' :: (text.toList.flatMap escape ++ ['"']) := by
  simp [quoted]

theorem stringRest_quoted (text : String) (rest : List Char) :
    stringRest [] (text.toList.flatMap escape ++ '"' :: rest) = some (text, rest) := by
  rw [stringRest_escaped, List.reverse_nil, List.nil_append, String.ofList_toList]

theorem head?_toDigits {n : Nat} (h : n ≠ 0) : (Nat.toDigits 10 n).head? ≠ some '0' := by
  induction n using Nat.strongRecOn with
  | ind n ih =>
      rw [Nat.toDigits_eq_if (by decide)]
      split
      case isTrue =>
        intro zero
        exact h (Nat.digitChar_eq_zero.mp (Option.some.inj zero))
      case isFalse large =>
        have fewer : n / 10 < n := by omega
        have first := ih (n / 10) fewer (by omega)
        rw [List.head?_append]
        cases front : (Nat.toDigits 10 (n / 10)).head? with
        | none => exact absurd (List.head?_eq_none_iff.mp front) Nat.toDigits_ne_nil
        | some c =>
            rw [front] at first
            exact first

theorem fraction?_of_boundary {text : List Char} (h : Boundary text) :
    fraction? text = some ([], text) := by
  unfold fraction?
  split
  case h_1 rest => exact absurd rfl (h '.' rfl).2.1
  case h_2 => rfl

theorem exponent?_of_boundary {text : List Char} (h : Boundary text) :
    exponent? text = some ([], text) := by
  cases text with
  | nil => rfl
  | cons c rest =>
      obtain ⟨-, -, lower, upper⟩ := h c rfl
      simp [exponent?, lower, upper]

theorem takeWhile_dropWhile_digits {digits rest : List Char} (h : ∀ c ∈ digits, c.isDigit = true)
    (boundary : Boundary rest) :
    (digits ++ rest).takeWhile Char.isDigit = digits ∧
      (digits ++ rest).dropWhile Char.isDigit = rest := by
  have stops : rest.takeWhile Char.isDigit = [] ∧ rest.dropWhile Char.isDigit = rest := by
    cases rest with
    | nil => exact ⟨rfl, rfl⟩
    | cons c rest =>
        have digit := (boundary c rfl).1
        rw [List.takeWhile_cons, List.dropWhile_cons, digit]
        exact ⟨rfl, rfl⟩
  rw [List.takeWhile_append_of_pos h, List.dropWhile_append_of_pos h, stops.1, stops.2,
    List.append_nil]
  exact ⟨rfl, rfl⟩

/-- A numeral has a digit, and starts with a zero only if that is all of it. -/
theorem leading_toDigits (n : Nat) :
    ((Nat.toDigits 10 n).isEmpty ||
      ((Nat.toDigits 10 n).length != 1 && (Nat.toDigits 10 n).head? == some '0')) = false := by
  by_cases zero : n = 0
  · subst zero
    rfl
  · have first := head?_toDigits zero
    have some : Nat.toDigits 10 n ≠ [] := Nat.toDigits_ne_nil
    simp [first, some]

theorem unsigned?_ofNat {n : Nat} {negative : Bool} (nonzero : negative = true → n ≠ 0)
    {rest : List Char} (boundary : Boundary rest) :
    unsigned? negative ((Decimal.ofNat n).toList ++ rest) =
      some (.int (if negative then -Int.ofNat n else Int.ofNat n), rest) := by
  have digits : ∀ c ∈ Nat.toDigits 10 n, c.isDigit = true := fun c member =>
    Nat.isDigit_of_mem_toDigits (by decide) (by decide) member
  obtain ⟨whole, after⟩ := takeWhile_dropWhile_digits digits boundary
  have signed : (negative && n == 0) = false := by
    cases negative with
    | false => rfl
    | true => simpa using nonzero rfl
  rw [Decimal.toList_ofNat, unsigned?, whole, after, leading_toDigits]
  simp [fraction?_of_boundary boundary, exponent?_of_boundary boundary,
    Nat.ofDigitChars_ten_toDigits, signed]

theorem number?_ofInt (z : Int) {rest : List Char} (boundary : Boundary rest) :
    number? ((Decimal.ofInt z).toList ++ rest) = some (.int z, rest) := by
  by_cases negative : z < 0
  · have list : (Decimal.ofInt z).toList = '-' :: (Decimal.ofNat z.natAbs).toList := by
      simp [Decimal.ofInt, negative]
    have value : -Int.ofNat z.natAbs = z := by
      rw [Int.ofNat_eq_natCast]
      omega
    rw [list, List.cons_append, number?, unsigned?_ofNat (fun _ => by omega) boundary, if_pos rfl,
      value]
  · have list : (Decimal.ofInt z).toList = (Decimal.ofNat z.natAbs).toList := by
      simp [Decimal.ofInt, negative]
    have value : Int.ofNat z.natAbs = z := by
      rw [Int.ofNat_eq_natCast]
      omega
    have read := @unsigned?_ofNat z.natAbs false (fun h => by cases h) rest boundary
    rw [if_neg (by decide), value] at read
    obtain ⟨c, digits, first, digit⟩ := Decimal.exists_digit_ofNat z.natAbs
    rw [list, ← read, first]
    unfold number?
    split
    case h_1 minus =>
      cases minus
      cases digit
    case h_2 => rfl

/-- How the numeral of an integer starts. -/
theorem exists_ofInt_cons (z : Int) : ∃ c rest, (Decimal.ofInt z).toList = c :: rest ∧
    (c = '-' ∨ c.isDigit = true) := by
  obtain ⟨c, rest, digits, digit⟩ := Decimal.exists_digit_ofNat z.natAbs
  by_cases negative : z < 0
  · exact ⟨'-', (Decimal.ofNat z.natAbs).toList, by simp [Decimal.ofInt, negative], .inl rfl⟩
  · exact ⟨c, rest, by simp [Decimal.ofInt, negative, digits], .inr digit⟩

theorem value?_append {gap : List Char} (h : ∀ c ∈ gap, isSpace c = true) (fuel : Nat)
    (text : List Char) : value? fuel (gap ++ text) = value? fuel text := by
  cases fuel with
  | zero => rw [value?, value?]
  | succ fuel => rw [value?, value?, skipSpace_append h]

theorem items?_append {gap : List Char} (h : ∀ c ∈ gap, isSpace c = true) (fuel : Nat)
    (text : List Char) : items? fuel (gap ++ text) = items? fuel text := by
  cases fuel with
  | zero => rw [items?, items?]
  | succ fuel => rw [items?, items?, value?_append h]

theorem fields?_append {gap : List Char} (h : ∀ c ∈ gap, isSpace c = true) (fuel : Nat)
    (text : List Char) : fields? fuel (gap ++ text) = fields? fuel text := by
  cases fuel with
  | zero => rw [fields?, fields?]
  | succ fuel => rw [fields?, fields?, skipSpace_append h]

theorem isSpace_of_isDigit {c : Char} (h : c.isDigit = true) : isSpace c = false := by
  cases space : isSpace c with
  | false => rfl
  | true =>
      simp only [isSpace, Bool.or_eq_true, beq_iff_eq] at space
      rcases space with ((rfl | rfl) | rfl) | rfl <;> cases h

theorem value?_number {c : Char} (h : c = '-' ∨ c.isDigit = true) (fuel : Nat) (rest : List Char) :
    value? (fuel + 1) (c :: rest) = number? (c :: rest) := by
  have ink : isSpace c = false := by
    rcases h with rfl | digit
    · decide
    · exact isSpace_of_isDigit digit
  rw [value?, skipSpace_cons ink]
  -- No other kind of value starts with a minus sign or a digit.
  split
  case h_7 => rfl
  all_goals
    rename_i same
    cases same
    exact absurd h (by decide)

theorem value?_string (text : String) (fuel : Nat) (rest : List Char) :
    value? (fuel + 1) ((quoted text).toList ++ rest) = some (.str text, rest) := by
  rw [toList_quoted, List.cons_append, List.append_assoc, List.singleton_append, value?,
    skipSpace_cons (by decide)]
  simp only [stringRest_quoted]

theorem value?_array {fuel : Nat} {c : Char} {text inner rest : List Char} {items : List Json}
    (start : skipSpace text = c :: inner) (some_item : c ≠ ']')
    (read : items? fuel (c :: inner) = some (items, rest)) :
    value? (fuel + 1) ('[' :: text) = some (.arr items, rest) := by
  rw [value?, skipSpace_cons (by decide)]
  simp only [start]
  split
  case h_1 same =>
    cases same
    exact absurd rfl some_item
  case h_2 => simp only [read]

theorem value?_object {fuel : Nat} {text inner rest : List Char} {fields : List (String × Json)}
    (start : skipSpace text = '"' :: inner)
    (read : fields? fuel ('"' :: inner) = some (fields, rest)) :
    value? (fuel + 1) ('\x7b' :: text) = some (.obj fields, rest) := by
  rw [value?, skipSpace_cons (by decide)]
  simp only [start]
  split
  case h_1 same => cases same
  case h_2 => simp only [read]

theorem items?_last {fuel : Nat} {text after rest : List Char} {item : Json}
    (read : value? fuel text = some (item, after)) (closed : skipSpace after = ']' :: rest) :
    items? (fuel + 1) text = some ([item], rest) := by
  rw [items?]
  simp only [read, closed]

theorem items?_more {fuel : Nat} {text after tail rest : List Char} {item : Json}
    {items : List Json} (read : value? fuel text = some (item, after))
    (comma : skipSpace after = ',' :: tail) (more : items? fuel tail = some (items, rest)) :
    items? (fuel + 1) text = some (item :: items, rest) := by
  rw [items?]
  simp only [read, comma, more]

theorem fields?_last {fuel : Nat} {key : String} {text after rest : List Char} {value : Json}
    (read : value? fuel text = some (value, after)) (closed : skipSpace after = '\x7d' :: rest) :
    fields? (fuel + 1) ((quoted key).toList ++ ':' :: text) = some ([(key, value)], rest) := by
  rw [toList_quoted, List.cons_append, List.append_assoc, List.singleton_append, fields?,
    skipSpace_cons (by decide)]
  have colon : skipSpace (':' :: text) = ':' :: text := skipSpace_cons (by decide) text
  simp only [stringRest_quoted, colon, read, closed]

theorem fields?_more {fuel : Nat} {key : String} {text after tail rest : List Char} {value : Json}
    {fields : List (String × Json)} (read : value? fuel text = some (value, after))
    (comma : skipSpace after = ',' :: tail) (more : fields? fuel tail = some (fields, rest)) :
    fields? (fuel + 1) ((quoted key).toList ++ ':' :: text) =
      some ((key, value) :: fields, rest) := by
  rw [toList_quoted, List.cons_append, List.append_assoc, List.singleton_append, fields?,
    skipSpace_cons (by decide)]
  have colon : skipSpace (':' :: text) = ':' :: text := skipSpace_cons (by decide) text
  simp only [stringRest_quoted, colon, read, comma, more]

section render

variable {style : Style}

theorem toList_render_arr (depth : Nat) (first : Json) (rest : List Json) :
    (render style depth (.arr (first :: rest))).toList =
      '[' :: ((style.lineBreak (depth + 1)).toList ++
        ((render style (depth + 1) first).toList ++ (renderItems style depth rest).toList)) := by
  simp [render]

theorem toList_render_obj (depth : Nat) (key : String) (first : Json)
    (rest : List (String × Json)) :
    (render style depth (.obj ((key, first) :: rest))).toList =
      '\x7b' :: ((style.lineBreak (depth + 1)).toList ++ ((quoted key).toList ++
        (style.colon.toList ++ ((render style (depth + 1) first).toList ++
          (renderFields style depth rest).toList)))) := by
  simp [render]

theorem toList_renderItems_cons (depth : Nat) (next : Json) (rest : List Json) :
    (renderItems style depth (next :: rest)).toList =
      ',' :: ((style.lineBreak (depth + 1)).toList ++
        ((render style (depth + 1) next).toList ++ (renderItems style depth rest).toList)) := by
  simp [renderItems]

theorem toList_renderFields_cons (depth : Nat) (key : String) (next : Json)
    (rest : List (String × Json)) :
    (renderFields style depth ((key, next) :: rest)).toList =
      ',' :: ((style.lineBreak (depth + 1)).toList ++ ((quoted key).toList ++
        (style.colon.toList ++ ((render style (depth + 1) next).toList ++
          (renderFields style depth rest).toList)))) := by
  simp [renderFields]

/-- The text of a value starts with ink, and not with the end of an array. -/
theorem exists_render_cons {value : Json} (h : value.plain = true) (depth : Nat) :
    ∃ c rest, (render style depth value).toList = c :: rest ∧ isSpace c = false ∧ c ≠ ']' := by
  match value with
  | .null => exact ⟨'n', ['u', 'l', 'l'], by rw [render]; rfl, by decide, by decide⟩
  | .bool true => exact ⟨'t', ['r', 'u', 'e'], by rw [render]; rfl, by decide, by decide⟩
  | .bool false => exact ⟨'f', ['a', 'l', 's', 'e'], by rw [render]; rfl, by decide, by decide⟩
  | .int z =>
      obtain ⟨c, rest, list, first⟩ := exists_ofInt_cons z
      refine ⟨c, rest, by rw [render, list], ?_, ?_⟩
      · rcases first with rfl | digit
        · decide
        · exact isSpace_of_isDigit digit
      · rintro rfl
        exact absurd first (by decide)
  | .real literal => cases h
  | .str text => exact ⟨'"', _, by rw [render, toList_quoted], by decide, by decide⟩
  | .arr [] => exact ⟨'[', [']'], by rw [render]; rfl, by decide, by decide⟩
  | .arr (first :: rest) => exact ⟨'[', _, toList_render_arr depth first rest, by decide, by decide⟩
  | .obj [] => exact ⟨'\x7b', ['\x7d'], by rw [render]; rfl, by decide, by decide⟩
  | .obj ((key, first) :: rest) =>
      exact ⟨'\x7b', _, toList_render_obj depth key first rest, by decide, by decide⟩

theorem length_render_pos {value : Json} (h : value.plain = true) (depth : Nat) :
    0 < (render style depth value).toList.length := by
  obtain ⟨c, rest, list, -⟩ := @exists_render_cons style value h depth
  rw [list, List.length_cons]
  exact Nat.succ_pos _

theorem boundary_renderItems (spaced : style.Spaced) (depth : Nat) (items : List Json)
    (rest : List Char) : Boundary ((renderItems style depth items).toList ++ rest) := by
  cases items with
  | nil =>
      rw [renderItems, String.toList_append, List.append_assoc]
      exact boundary_append (spaced.lineBreak depth) (boundary_cons (by decide) rest)
  | cons next items =>
      rw [toList_renderItems_cons]
      exact boundary_cons (by decide) _

theorem boundary_renderFields (spaced : style.Spaced) (depth : Nat)
    (fields : List (String × Json)) (rest : List Char) :
    Boundary ((renderFields style depth fields).toList ++ rest) := by
  cases fields with
  | nil =>
      rw [renderFields, String.toList_append, List.append_assoc]
      exact boundary_append (spaced.lineBreak depth) (boundary_cons (by decide) rest)
  | cons field fields =>
      obtain ⟨key, next⟩ := field
      rw [toList_renderFields_cons]
      exact boundary_cons (by decide) _

mutual

theorem value?_render (spaced : style.Spaced) (value : Json) (h : value.plain = true)
    {depth fuel : Nat} {rest : List Char} (boundary : Boundary rest)
    (enough : 2 * (render style depth value).toList.length ≤ fuel) :
    value? fuel ((render style depth value).toList ++ rest) = some (value, rest) := by
  have some_text := @length_render_pos style value h depth
  obtain ⟨fuel, rfl⟩ : ∃ less, fuel = less + 1 := ⟨fuel - 1, by omega⟩
  -- A part inside brackets costs two calls more than the part alone and stands between two marks.
  cases value with
  | null =>
      rw [render]
      rfl
  | bool value =>
      cases value <;> (rw [render]; rfl)
  | int z =>
      obtain ⟨c, digits, list, first⟩ := exists_ofInt_cons z
      have read := number?_ofInt z boundary
      rw [render]
      rw [list, List.cons_append] at read ⊢
      rw [value?_number first, read]
  | real literal => cases h
  | str text =>
      rw [render]
      exact value?_string text fuel rest
  | arr items =>
      cases items with
      | nil =>
          rw [render]
          rfl
      | cons first more =>
          rw [plain, plainItems, Bool.and_eq_true] at h
          rw [toList_render_arr] at enough ⊢
          simp only [List.length_cons, List.length_append] at enough
          obtain ⟨fuel, rfl⟩ : ∃ less, fuel = less + 1 := ⟨fuel - 1, by omega⟩
          obtain ⟨c, inner, list, ink, item⟩ := @exists_render_cons style first h.1 (depth + 1)
          have read := @value?_render spaced first h.1 (depth + 1) fuel _
            (boundary_renderItems spaced depth more rest) (by omega)
          have items := items?_tail spaced more h.2 read (by omega)
          simp only [List.cons_append, List.append_assoc]
          rw [list, List.cons_append] at items ⊢
          refine value?_array ?_ item items
          rw [skipSpace_append (spaced.lineBreak (depth + 1)), skipSpace_cons ink]
  | obj fields =>
      cases fields with
      | nil =>
          rw [render]
          rfl
      | cons field more =>
          obtain ⟨key, first⟩ := field
          rw [plain, plainFields, Bool.and_eq_true] at h
          rw [toList_render_obj] at enough ⊢
          simp only [List.length_cons, List.length_append] at enough
          obtain ⟨fuel, rfl⟩ : ∃ less, fuel = less + 1 := ⟨fuel - 1, by omega⟩
          obtain ⟨gap, colon, blank⟩ := spaced.colon
          have read := @value?_render spaced first h.1 (depth + 1) fuel _
            (boundary_renderFields spaced depth more rest) (by omega)
          have fields := @fields?_tail spaced more h.2 key _ _ _ _ _
            ((value?_append blank fuel _).trans read) (by omega)
          simp only [List.cons_append, List.append_assoc, colon]
          rw [toList_quoted, List.cons_append] at fields ⊢
          refine value?_object ?_ fields
          rw [skipSpace_append (spaced.lineBreak (depth + 1)), skipSpace_cons (by decide)]

/-- The items behind one that has been read are those that were written behind it. -/
theorem items?_tail (spaced : style.Spaced) (more : List Json) (h : plainItems more = true)
    {item : Json} {depth fuel : Nat} {text rest : List Char}
    (read : value? fuel text = some (item, (renderItems style depth more).toList ++ rest))
    (enough : 2 * (renderItems style depth more).toList.length ≤ fuel) :
    items? (fuel + 1) text = some (item :: more, rest) := by
  cases more with
  | nil =>
      refine items?_last read ?_
      rw [renderItems, String.toList_append, List.append_assoc,
        skipSpace_append (spaced.lineBreak depth)]
      exact skipSpace_cons (by decide) rest
  | cons next more =>
      rw [plainItems, Bool.and_eq_true] at h
      rw [toList_renderItems_cons] at enough read
      simp only [List.length_cons, List.length_append] at enough
      obtain ⟨fuel, rfl⟩ : ∃ less, fuel = less + 1 := ⟨fuel - 1, by omega⟩
      have readNext := @value?_render spaced next h.1 (depth + 1) fuel _
        (boundary_renderItems spaced depth more rest) (by omega)
      have others := items?_tail spaced more h.2 readNext (by omega)
      rw [← items?_append (spaced.lineBreak (depth + 1))] at others
      refine items?_more read ?_ others
      simp only [List.cons_append, List.append_assoc]
      exact skipSpace_cons (by decide) _

theorem fields?_tail (spaced : style.Spaced) (more : List (String × Json))
    (h : plainFields more = true) {key : String} {value : Json} {depth fuel : Nat}
    {text rest : List Char}
    (read : value? fuel text = some (value, (renderFields style depth more).toList ++ rest))
    (enough : 2 * (renderFields style depth more).toList.length ≤ fuel) :
    fields? (fuel + 1) ((quoted key).toList ++ ':' :: text) =
      some ((key, value) :: more, rest) := by
  cases more with
  | nil =>
      refine fields?_last read ?_
      rw [renderFields, String.toList_append, List.append_assoc,
        skipSpace_append (spaced.lineBreak depth)]
      exact skipSpace_cons (by decide) rest
  | cons field more =>
      obtain ⟨nextKey, next⟩ := field
      rw [plainFields, Bool.and_eq_true] at h
      rw [toList_renderFields_cons] at enough read
      simp only [List.length_cons, List.length_append] at enough
      obtain ⟨fuel, rfl⟩ : ∃ less, fuel = less + 1 := ⟨fuel - 1, by omega⟩
      obtain ⟨gap, colon, blank⟩ := spaced.colon
      have readNext := @value?_render spaced next h.1 (depth + 1) fuel _
        (boundary_renderFields spaced depth more rest) (by omega)
      have others := @fields?_tail spaced more h.2 nextKey _ _ _ _ _
        ((value?_append blank fuel _).trans readNext) (by omega)
      rw [← fields?_append (spaced.lineBreak (depth + 1))] at others
      refine fields?_more read ?_ others
      simp only [List.cons_append, List.append_assoc, colon]
      exact skipSpace_cons (by decide) _

end

/-- The text of a value without literals is read back as that value. -/
theorem read?_render (spaced : style.Spaced) {value : Json} (h : value.plain = true) (depth : Nat) :
    read? (value.render style depth) = some value := by
  have read := @value?_render style spaced value h depth _ [] boundary_nil (Nat.le_add_right _ 2)
  rw [List.append_nil] at read
  rw [read?]
  simp only [read]
  rfl

end render

theorem Style.spaced_compact : Style.compact.Spaced where
  lineBreak := fun _ _ member => absurd member List.not_mem_nil
  colon := ⟨[], rfl, fun _ member => absurd member List.not_mem_nil⟩

theorem Style.spaced_indented : Style.indented.Spaced where
  lineBreak := by
    intro depth c member
    have shape : (Style.indented.lineBreak depth).toList =
        '\n' :: List.replicate (2 * depth) ' ' := by
      simp [Style.indented]
    rw [shape] at member
    rcases List.mem_cons.mp member with rfl | space
    · decide
    · rw [List.eq_of_mem_replicate space]
      decide
  colon := by
    refine ⟨[' '], rfl, ?_⟩
    intro c member
    rw [List.mem_singleton.mp member]
    decide

theorem read?_compact {value : Json} (h : value.plain = true) :
    read? value.compact = some value :=
  read?_render Style.spaced_compact h 0

theorem read?_indented {value : Json} (h : value.plain = true) :
    read? value.indented = some value :=
  read?_render Style.spaced_indented h 0

end Boardwalk.Json
