import Boardwalk.Json.Basic

/-!
# Reading JSON text

The reader accepts exactly one value with white space around it. An integer
literal becomes an integer of any size; a literal with a fraction, an exponent or
a minus sign before zero keeps its spelling. Escaped pairs of surrogates are one
character, and a surrogate that stands alone is refused.
-/
namespace Boardwalk.Json

def isSpace (c : Char) : Bool := c == ' ' || c == '\t' || c == '\n' || c == '\r'

def skipSpace (text : List Char) : List Char := text.dropWhile isSpace

def hexDigit? (c : Char) : Option Nat :=
  if c.isDigit then some (c.toNat - '0'.toNat)
  else if 'a' ≤ c && c ≤ 'f' then some (c.toNat - 'a'.toNat + 10)
  else if 'A' ≤ c && c ≤ 'F' then some (c.toNat - 'A'.toNat + 10)
  else none

def unit? (a b c d : Char) : Option Nat := do
  let a ← hexDigit? a
  let b ← hexDigit? b
  let c ← hexDigit? c
  let d ← hexDigit? d
  some (((a * 16 + b) * 16 + c) * 16 + d)

/-- The character of a one-letter escape. -/
def unescape? (c : Char) : Option Char :=
  match c with
  | '"' => some '"'
  | '\\' => some '\\'
  | '/' => some '/'
  | 'b' => some '\x08'
  | 't' => some '\x09'
  | 'n' => some '\x0a'
  | 'f' => some '\x0c'
  | 'r' => some '\x0d'
  | _ => none

/-- Whether a code unit is the first half of a surrogate pair. -/
def isLeading (unit : Nat) : Bool := 0xD800 ≤ unit && unit < 0xDC00

/-- Whether a code unit is the second half of a surrogate pair. -/
def isTrailing (unit : Nat) : Bool := 0xDC00 ≤ unit && unit < 0xE000

def joinUnits (leading trailing : Nat) : Char :=
  Char.ofNat (0x10000 + (leading - 0xD800) * 0x400 + (trailing - 0xDC00))

/-- The rest of a string after its opening mark, given the characters already read, newest
first. Returns the string and what follows its closing mark. -/
def stringRest (taken : List Char) : List Char → Option (String × List Char)
  | [] => none
  | '"' :: rest => some (String.ofList taken.reverse, rest)
  | '\\' :: 'u' :: a :: b :: c :: d :: rest =>
    match unit? a b c d with
    | none => none
    | some unit =>
      if isLeading unit then
        match rest with
        | '\\' :: 'u' :: e :: f :: g :: h :: rest =>
          match unit? e f g h with
          | none => none
          | some next =>
            if isTrailing next then stringRest (joinUnits unit next :: taken) rest else none
        | _ => none
      else if isTrailing unit then none
      else stringRest (Char.ofNat unit :: taken) rest
  | '\\' :: c :: rest =>
    match unescape? c with
    | none => none
    | some char => stringRest (char :: taken) rest
  | c :: rest => if c.toNat < 0x20 then none else stringRest (c :: taken) rest

/-- The fraction of a number, which may be absent, and what follows it. -/
def fraction? : List Char → Option (List Char × List Char)
  | '.' :: rest =>
    let digits := rest.takeWhile Char.isDigit
    if digits.isEmpty then none else some ('.' :: digits, rest.dropWhile Char.isDigit)
  | text => some ([], text)

/-- The digits of an exponent after its sign. -/
def exponentDigits? (mark : List Char) (text : List Char) : Option (List Char × List Char) :=
  let digits := text.takeWhile Char.isDigit
  if digits.isEmpty then none else some (mark ++ digits, text.dropWhile Char.isDigit)

/-- The exponent of a number, which may be absent, and what follows it. -/
def exponent? : List Char → Option (List Char × List Char)
  | c :: rest =>
    if c == 'e' || c == 'E' then
      match rest with
      | '+' :: rest => exponentDigits? [c, '+'] rest
      | '-' :: rest => exponentDigits? [c, '-'] rest
      | rest => exponentDigits? [c] rest
    else some ([], c :: rest)
  | [] => some ([], [])

/-- A number without its sign, and what follows it. -/
def unsigned? (negative : Bool) (text : List Char) : Option (Json × List Char) := do
  let whole := text.takeWhile Char.isDigit
  if whole.isEmpty || (whole.length != 1 && whole.head? == some '0') then none
  else
    let (fraction, rest) ← fraction? (text.dropWhile Char.isDigit)
    let (exponent, rest) ← exponent? rest
    let size := Nat.ofDigitChars 10 whole 0
    if !fraction.isEmpty || !exponent.isEmpty || (negative && size == 0) then
      let sign := if negative then ['-'] else []
      some (.real (String.ofList (sign ++ whole ++ fraction ++ exponent)), rest)
    else some (.int (if negative then -Int.ofNat size else Int.ofNat size), rest)

def number? : List Char → Option (Json × List Char)
  | '-' :: rest => unsigned? true rest
  | text => unsigned? false text

mutual

/-- One value after white space, and what follows it. -/
def value? : Nat → List Char → Option (Json × List Char)
  | 0, _ => none
  | fuel + 1, text =>
    match skipSpace text with
    | '"' :: rest =>
      match stringRest [] rest with
      | some (string, rest) => some (.str string, rest)
      | none => none
    | '[' :: rest =>
      match skipSpace rest with
      | ']' :: rest => some (.arr [], rest)
      | rest =>
        match items? fuel rest with
        | some (items, rest) => some (.arr items, rest)
        | none => none
    | '\x7b' :: rest =>
      match skipSpace rest with
      | '\x7d' :: rest => some (.obj [], rest)
      | rest =>
        match fields? fuel rest with
        | some (fields, rest) => some (.obj fields, rest)
        | none => none
    | 't' :: 'r' :: 'u' :: 'e' :: rest => some (.bool true, rest)
    | 'f' :: 'a' :: 'l' :: 's' :: 'e' :: rest => some (.bool false, rest)
    | 'n' :: 'u' :: 'l' :: 'l' :: rest => some (.null, rest)
    | rest => number? rest

/-- The items of an array up to its closing bracket, and what follows that. -/
def items? : Nat → List Char → Option (List Json × List Char)
  | 0, _ => none
  | fuel + 1, text =>
    match value? fuel text with
    | none => none
    | some (item, rest) =>
      match skipSpace rest with
      | ']' :: rest => some ([item], rest)
      | ',' :: rest =>
        match items? fuel rest with
        | some (items, rest) => some (item :: items, rest)
        | none => none
      | _ => none

/-- The fields of an object up to its closing brace, and what follows that. -/
def fields? : Nat → List Char → Option (List (String × Json) × List Char)
  | 0, _ => none
  | fuel + 1, text =>
    match skipSpace text with
    | '"' :: rest =>
      match stringRest [] rest with
      | none => none
      | some (key, rest) =>
        match skipSpace rest with
        | ':' :: rest =>
          match value? fuel rest with
          | none => none
          | some (value, rest) =>
            match skipSpace rest with
            | '\x7d' :: rest => some ([(key, value)], rest)
            | ',' :: rest =>
              match fields? fuel rest with
              | some (fields, rest) => some ((key, value) :: fields, rest)
              | none => none
            | _ => none
        | _ => none
    | _ => none

end

/-- The value a text stands for. Two calls are enough for each character of the text. -/
def read? (text : String) : Option Json :=
  let chars := text.toList
  match value? (2 * chars.length + 2) chars with
  | some (value, rest) => if (skipSpace rest).isEmpty then some value else none
  | none => none

end Boardwalk.Json
