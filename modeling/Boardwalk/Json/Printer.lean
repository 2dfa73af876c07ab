import Boardwalk.Json.Basic
import Boardwalk.Text.Decimal

/-!
# JSON text

One printer serves two styles: `compact`, all on one line without a space, and
`indented`, one item or field a line with two spaces a level. Fields are written
in the order of the object. Only the quotation mark, the backslash and the
characters below the space are escaped.
-/
namespace Boardwalk.Json

/-- What stands between the parts of an array or object. -/
structure Style where
  /-- Written before an item or field and before the closing bracket, by depth. -/
  lineBreak : Nat → String
  colon : String

/-- All on one line, without a space. -/
def Style.compact : Style where
  lineBreak _ := ""
  colon := ":"

/-- A line for each item or field, two spaces for each level. -/
def Style.indented : Style where
  lineBreak depth := "\n" ++ String.ofList (List.replicate (2 * depth) ' ')
  colon := ": "

/-- The escape of a character below the space that has no short form. -/
def unicodeEscape (c : Char) : List Char :=
  ['\\', 'u', '0', '0', Nat.digitChar (c.toNat / 16), Nat.digitChar (c.toNat % 16)]

/-- How a character is written between quotation marks. -/
def escape (c : Char) : List Char :=
  match c with
  | '"' => ['\\', '"']
  | '\\' => ['\\', '\\']
  | '\x08' => ['\\', 'b']
  | '\x09' => ['\\', 't']
  | '\x0a' => ['\\', 'n']
  | '\x0c' => ['\\', 'f']
  | '\x0d' => ['\\', 'r']
  | c => if c.toNat < 0x20 then unicodeEscape c else [c]

def quoted (text : String) : String :=
  "\"" ++ String.ofList (text.toList.flatMap escape) ++ "\""

mutual

/-- The text of a value that stands at a depth. -/
def render (style : Style) (depth : Nat) : Json → String
  | .null => "null"
  | .bool true => "true"
  | .bool false => "false"
  | .int value => Decimal.ofInt value
  | .real literal => literal
  | .str text => quoted text
  | .arr [] => "[]"
  | .arr (first :: rest) =>
    "[" ++ style.lineBreak (depth + 1) ++ render style (depth + 1) first
      ++ renderItems style depth rest
  | .obj [] => "\x7b\x7d"
  | .obj ((key, first) :: rest) =>
    "\x7b" ++ style.lineBreak (depth + 1) ++ quoted key ++ style.colon
      ++ render style (depth + 1) first ++ renderFields style depth rest

/-- The items after the first, and the closing bracket. -/
def renderItems (style : Style) (depth : Nat) : List Json → String
  | [] => style.lineBreak depth ++ "]"
  | next :: rest =>
    "," ++ style.lineBreak (depth + 1) ++ render style (depth + 1) next
      ++ renderItems style depth rest

/-- The fields after the first, and the closing brace. -/
def renderFields (style : Style) (depth : Nat) : List (String × Json) → String
  | [] => style.lineBreak depth ++ "\x7d"
  | (key, next) :: rest =>
    "," ++ style.lineBreak (depth + 1) ++ quoted key ++ style.colon
      ++ render style (depth + 1) next ++ renderFields style depth rest

end

def compact (value : Json) : String := value.render .compact 0

def indented (value : Json) : String := value.render .indented 0

end Boardwalk.Json
