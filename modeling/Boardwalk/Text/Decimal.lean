/-!
# Decimal numerals

Whole numbers are written with the digits `0` to `9`, without leading zeros and
with a minus sign only. When read, leading zeros are allowed, and so is a plus
sign; a minus sign is allowed only where the number is a signed one.
-/
namespace Boardwalk.Decimal

def ofNat (n : Nat) : String := String.ofList (Nat.toDigits 10 n)

def ofInt (z : Int) : String := if z < 0 then "-" ++ ofNat z.natAbs else ofNat z.natAbs

/-- The value of a non-empty run of digits. -/
def digits? (text : List Char) : Option Nat :=
  if !text.isEmpty && text.all Char.isDigit then some (Nat.ofDigitChars 10 text 0) else none

/-- The value of a run of digits that a plus sign may lead. -/
def natural? : List Char → Option Nat
  | '+' :: rest => digits? rest
  | text => digits? text

/-- The value of a run of digits that a sign may lead. -/
def integer? : List Char → Option Int
  | '-' :: rest => (digits? rest).map fun n => -Int.ofNat n
  | text => (natural? text).map Int.ofNat

/-- The natural number a text stands for, if it is at most `most`. -/
def atMost? (most : Nat) (text : List Char) : Option Nat :=
  (natural? text).filter (· ≤ most)

/-- The signed 64-bit number an integer is, if it is in range. -/
def int64OfInt? (z : Int) : Option Int64 :=
  if Int64.minValue.toInt ≤ z ∧ z ≤ Int64.maxValue.toInt then some (Int64.ofInt z) else none

/-- The signed 64-bit number a text stands for. -/
def int64? (text : List Char) : Option Int64 := (integer? text).bind int64OfInt?

/-- The unsigned 32-bit number a natural number is, if it is in range. -/
def uint32OfNat? (n : Nat) : Option UInt32 :=
  if n < UInt32.size then some (UInt32.ofNat n) else none

/-- The unsigned 32-bit number a text stands for. -/
def uint32? (text : List Char) : Option UInt32 := (natural? text).bind uint32OfNat?

theorem toList_ofNat (n : Nat) : (ofNat n).toList = Nat.toDigits 10 n := by
  simp [ofNat]

theorem digits?_ofNat (n : Nat) : digits? (ofNat n).toList = some n := by
  have digits : ∀ c ∈ Nat.toDigits 10 n, c.isDigit = true := fun _ h =>
    Nat.isDigit_of_mem_toDigits (by decide) (by decide) h
  have nonempty : Nat.toDigits 10 n ≠ [] := Nat.toDigits_ne_nil
  simp [digits?, toList_ofNat, nonempty, List.all_eq_true.2 digits,
    Nat.ofDigitChars_ten_toDigits]

theorem exists_digit_ofNat (n : Nat) : ∃ c rest, (ofNat n).toList = c :: rest ∧ c.isDigit = true := by
  rw [toList_ofNat]
  cases h : Nat.toDigits 10 n with
  | nil => exact absurd h Nat.toDigits_ne_nil
  | cons c rest =>
    have first : c ∈ Nat.toDigits 10 n := by simp [h]
    exact ⟨c, rest, rfl, Nat.isDigit_of_mem_toDigits (by decide) (by decide) first⟩

theorem natural?_ofNat (n : Nat) : natural? (ofNat n).toList = some n := by
  obtain ⟨c, rest, h, digit⟩ := exists_digit_ofNat n
  have sign : c ≠ '+' := by
    rintro rfl
    exact absurd digit (by decide)
  rw [← digits?_ofNat n, h]
  unfold natural?
  split
  case h_1 plus => exact absurd (List.cons.inj plus).1 sign
  case h_2 => rfl

/-- The numeral of an integer is read back as that integer. -/
theorem integer?_ofInt (z : Int) : integer? (ofInt z).toList = some z := by
  by_cases negative : z < 0
  · have list : (ofInt z).toList = '-' :: (ofNat z.natAbs).toList := by
      simp [ofInt, negative]
    have value : -(z.natAbs : Int) = z := by omega
    rw [list, integer?, digits?_ofNat]
    exact congrArg some value
  · have list : (ofInt z).toList = (ofNat z.natAbs).toList := by
      simp [ofInt, negative]
    obtain ⟨c, rest, h, digit⟩ := exists_digit_ofNat z.natAbs
    have sign : c ≠ '-' := by
      rintro rfl
      exact absurd digit (by decide)
    have read := natural?_ofNat z.natAbs
    rw [list]
    unfold integer?
    split
    case h_1 minus => exact absurd (List.cons.inj (h.symm.trans minus)).1 sign
    case h_2 =>
      have value : (z.natAbs : Int) = z := by omega
      rw [read]
      exact congrArg some value

theorem int64?_ofInt (k : Int64) : int64? (ofInt k.toInt).toList = some k := by
  have low : Int64.minValue.toInt ≤ k.toInt := Int64.minValue_le_toInt k
  have high : k.toInt ≤ Int64.maxValue.toInt := Int64.toInt_le k
  rw [int64?, integer?_ofInt, Option.bind_some, int64OfInt?, if_pos ⟨low, high⟩, Int64.ofInt_toInt]

theorem uint32?_ofNat (n : UInt32) : uint32? (ofNat n.toNat).toList = some n := by
  have bound : n.toNat < UInt32.size := n.toNat_lt
  simp [uint32?, natural?_ofNat, uint32OfNat?, bound]

end Boardwalk.Decimal
