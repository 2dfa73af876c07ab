/-!
# JSON values

A value keeps the fields of an object in the order in which they were given. A
number is either an integer, held exactly, or a literal that is not one, of which
only the spelling is kept.
-/
namespace Boardwalk

inductive Json where
  | null
  | bool (value : Bool)
  | int (value : Int)
  | real (literal : String)
  | str (text : String)
  | arr (items : List Json)
  | obj (fields : List (String × Json))
  deriving Inhabited

namespace Json

/-- The value of a key. Where a key is given twice the later field counts. -/
def lookup (key : String) : List (String × Json) → Option Json
  | [] => none
  | (name, value) :: rest =>
    match lookup key rest with
    | some later => some later
    | none => if name = key then some value else none

/-- The value of a field of an object; other values have no fields. -/
def field? (value : Json) (key : String) : Option Json :=
  match value with
  | .obj fields => lookup key fields
  | _ => none

/-- The value of a field that is there and is not `null`. -/
def given? (value : Json) (key : String) : Option Json :=
  match value.field? key with
  | some .null => none
  | found => found

def str? : Json → Option String
  | .str text => some text
  | _ => none

def int? : Json → Option Int
  | .int value => some value
  | _ => none

def arr? : Json → Option (List Json)
  | .arr items => some items
  | _ => none

/-- The key and the value of an object that has one key only. -/
def single? : Json → Option (String × Json)
  | .obj ((key, value) :: rest) =>
    if rest.all fun field => field.1 = key then
      (lookup key ((key, value) :: rest)).map fun last => (key, last)
    else none
  | _ => none

/-- A name: a string, or an object with that one key, whose value is `null`. -/
def word? (value : Json) : Option String :=
  match value.single? with
  | some (name, .null) => some name
  | some _ => none
  | none => value.str?

/-- A name in a place where the value of the one key may also be an empty object. -/
def looseWord? (value : Json) : Option String :=
  match value.single? with
  | some (name, .obj []) => some name
  | _ => value.word?

def nat (n : Nat) : Json := .int (Int.ofNat n)

def strs (texts : List String) : Json := .arr (texts.map .str)

end Json
end Boardwalk
