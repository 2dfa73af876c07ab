import Boardwalk.Proofs.Text
import Boardwalk.Text.Decimal
import Mathlib.Data.Nat.Digits.Defs

/-!
# The numbers that numerals stand for

A numeral is a run of digits that a sign may lead, and stands for the sum of its digits,
each times the power of ten at its place. The readers of numerals give that number for
these texts and nothing for any other.
-/
namespace Boardwalk.Decimal

/-- The number that decimal digits stand for; the last one counts the ones. -/
def value (digits : List Char) : Nat :=
  Nat.ofDigits 10 (digits.reverse.map fun c => c.toNat - '0'.toNat)

structure Run (digits : List Char) : Prop where
  ne_nil : digits ≠ []
  isDigit : ∀ c ∈ digits, c.isDigit = true

/-- The texts that stand for a number: a run of digits that a sign may lead. -/
inductive Numeral : List Char → Int → Prop
  | plain {digits : List Char} : Run digits → Numeral digits (value digits)
  | plus {digits : List Char} : Run digits → Numeral ('+' :: digits) (value digits)
  | minus {digits : List Char} : Run digits → Numeral ('-' :: digits) (-value digits)

theorem ofDigitChars_eq (digits : List Char) (init : Nat) :
    Nat.ofDigitChars 10 digits init = 10 ^ digits.length * init + value digits := by
  induction digits generalizing init with
  | nil => simp [Nat.ofDigitChars, value]
  | cons c digits ih =>
      rw [Nat.ofDigitChars_cons, ih, value, value, List.reverse_cons, List.map_append,
        Nat.ofDigits_append, List.length_cons, List.length_map, List.length_reverse]
      simp only [List.map_cons, List.map_nil, Nat.ofDigits_singleton]
      rw [Nat.mul_add, Nat.pow_succ, Nat.mul_assoc]
      omega

theorem digits?_eq_some_iff {text : List Char} {n : Nat} :
    digits? text = some n ↔ Run text ∧ value text = n := by
  have number : Nat.ofDigitChars 10 text 0 = value text := by
    rw [ofDigitChars_eq, Nat.mul_zero, Nat.zero_add]
  rw [digits?, number]
  constructor
  · intro found
    split at found
    case isTrue run =>
      rw [Bool.and_eq_true, List.all_eq_true] at run
      exact ⟨⟨by simpa using run.1, run.2⟩, Option.some.inj found⟩
    case isFalse => cases found
  · rintro ⟨run, rfl⟩
    apply if_pos
    rw [Bool.and_eq_true, List.all_eq_true]
    exact ⟨by simpa using run.ne_nil, run.isDigit⟩

theorem isSome_digits?_iff {text : List Char} : (digits? text).isSome = true ↔ Run text := by
  simp [Option.isSome_iff_exists, digits?_eq_some_iff]

theorem Run.head_ne {digits : List Char} (run : Run digits) {c : Char} (other : c.isDigit = false)
    (rest : List Char) : digits ≠ c :: rest := by
  rintro rfl
  rw [run.isDigit c List.mem_cons_self] at other
  cases other

theorem Run.natural?_eq {digits : List Char} (run : Run digits) :
    natural? digits = some (value digits) := by
  rw [natural?]
  · exact digits?_eq_some_iff.mpr ⟨run, rfl⟩
  · exact run.head_ne (by decide)

theorem natural?_eq_some_iff {text : List Char} {n : Nat} :
    natural? text = some n ↔ Numeral text n ∧ text.head? ≠ some '-' := by
  constructor
  · intro found
    unfold natural? at found
    split at found
    case h_1 rest =>
      obtain ⟨run, rfl⟩ := digits?_eq_some_iff.mp found
      exact ⟨.plus run, by simp⟩
    case h_2 =>
      obtain ⟨run, rfl⟩ := digits?_eq_some_iff.mp found
      refine ⟨.plain run, ?_⟩
      intro minus
      obtain ⟨rest, same⟩ := List.head?_eq_some_iff.mp minus
      exact run.head_ne (by decide) rest same
  · rintro ⟨numeral, sign⟩
    generalize number : (n : Int) = z at numeral
    cases numeral with
    | plain run =>
        rw [run.natural?_eq, Int.ofNat_inj.mp number]
    | plus run =>
        rw [natural?, Int.ofNat_inj.mp number]
        exact digits?_eq_some_iff.mpr ⟨run, rfl⟩
    | minus => exact absurd rfl sign

theorem integer?_eq_some_iff {text : List Char} {z : Int} :
    integer? text = some z ↔ Numeral text z := by
  constructor
  · intro found
    unfold integer? at found
    split at found
    case h_1 rest =>
      obtain ⟨n, read, rfl⟩ := Option.map_eq_some_iff.mp found
      obtain ⟨run, rfl⟩ := digits?_eq_some_iff.mp read
      exact .minus run
    case h_2 =>
      obtain ⟨n, read, rfl⟩ := Option.map_eq_some_iff.mp found
      exact (natural?_eq_some_iff.mp read).1
  · intro numeral
    cases numeral with
    | plain run =>
        rw [integer?, run.natural?_eq]
        · rfl
        · exact run.head_ne (by decide)
    | @plus digits run =>
        have read : natural? ('+' :: digits) = some (value digits) :=
          digits?_eq_some_iff.mpr ⟨run, rfl⟩
        rw [integer?, read]
        · rfl
        · simp
    | minus run =>
        rw [integer?, digits?_eq_some_iff.mpr ⟨run, rfl⟩]
        rfl

theorem Numeral.solid {text : List Char} {z : Int} (numeral : Numeral text z) :
    Text.Solid text := by
  have run {digits : List Char} (run : Run digits) : ∀ c ∈ digits, Text.isBlank c = false :=
    fun c member => Text.isBlank_of_isDigit (run.isDigit c member)
  cases numeral with
  | plain digits => exact ⟨digits.ne_nil, run digits⟩
  | plus digits =>
      exact ⟨List.cons_ne_nil _ _, List.forall_mem_cons.mpr ⟨by decide, run digits⟩⟩
  | minus digits =>
      exact ⟨List.cons_ne_nil _ _, List.forall_mem_cons.mpr ⟨by decide, run digits⟩⟩

end Boardwalk.Decimal
