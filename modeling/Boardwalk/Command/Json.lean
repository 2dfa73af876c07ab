import Boardwalk.Command.Keyword
import Boardwalk.Json.Basic

/-!
# Commands as JSON

A command is written as an object whose `kind` says which it is. When one is read,
the order of the fields does not matter and fields that the kind does not have are
passed over, but every field of the kind has to be there with a value in range.

A command may also be given as an array of its kind, its argument and, for a loop,
its block, with nothing missing and nothing left over. Inside a block the kind may
be given by its number.
-/
namespace Boardwalk

def Side.name : Side → String
  | .left => "Left"
  | .right => "Right"

def Side.ofName? : String → Option Side
  | "Left" => some .left
  | "Right" => some .right
  | _ => none

def Side.ofJson? (value : Json) : Option Side := value.word?.bind Side.ofName?

/-- The condition of a JSON name, which is spelled as in program text. -/
def Condition.ofName? : String → Option Condition
  | "WallAhead" => some .wallAhead
  | "GridEdge" => some .gridEdge
  | _ => none

def Condition.ofJson? (value : Json) : Option Condition := value.word?.bind Condition.ofName?

def Action.stepsOfJson? (value : Json) : Option Int64 := value.int?.bind Decimal.int64OfInt?

def Loop.timesOfJson? (value : Json) : Option UInt32 := do
  let z ← value.int?
  if z < 0 then none else Decimal.uint32OfNat? z.toNat

def Keyword.name : Keyword → String
  | .move => "move"
  | .turn => "turn"
  | .counted => "repeat"
  | .guarded => "conditional_repeat"

mutual

def Command.toJson : Command → Json
  | .act (.move steps) => .obj [("kind", .str Keyword.move.name), ("steps", .int steps.toInt)]
  | .act (.turn side) => .obj [("kind", .str Keyword.turn.name), ("side", .str side.name)]
  | .loop (.counted times) body =>
    .obj [("kind", .str Keyword.counted.name), ("times", .nat times.toNat),
      ("body", .arr (blockToJson body))]
  | .loop (.guarded condition) body =>
    .obj [("kind", .str Keyword.guarded.name), ("condition", .str condition.word),
      ("body", .arr (blockToJson body))]

def blockToJson : List Command → List Json
  | [] => []
  | command :: rest => command.toJson :: blockToJson rest

end

def Program.toJson (program : Program) : Json := .arr (blockToJson program)

namespace Keyword

def ofName? : String → Option Keyword
  | "move" => some .move
  | "turn" => some .turn
  | "repeat" => some .counted
  | "conditional_repeat" => some .guarded
  | _ => none

/-- The kind of a number. -/
def ofPlace? : Int → Option Keyword
  | 0 => some .move
  | 1 => some .turn
  | 2 => some .counted
  | 3 => some .guarded
  | _ => none

/-- The kind of a JSON value, which is a number only inside a block. -/
def ofJson? (inBlock : Bool) : Json → Option Keyword
  | .str name => ofName? name
  | .int place => if inBlock then ofPlace? place else none
  | _ => none

/-- The JSON name of the argument that a kind takes. -/
def argumentName : Keyword → String
  | .move => "steps"
  | .turn => "side"
  | .counted => "times"
  | .guarded => "condition"

/-- The header of a kind and the JSON value of its argument. -/
def headerOfJson? (argument : Json) : Keyword → Option Header
  | .move => (Action.stepsOfJson? argument).map fun steps => .act (.move steps)
  | .turn => (argument.looseWord?.bind Side.ofName?).map fun side => .act (.turn side)
  | .counted => (Loop.timesOfJson? argument).map fun times => .loop (.counted times)
  | .guarded =>
    (argument.looseWord?.bind Condition.ofName?).map fun condition => .loop (.guarded condition)

end Keyword

/-- The header that the fields of an object give. -/
def Header.ofFields? (inBlock : Bool) (fields : List (String × Json)) : Option Header := do
  let keyword ← Keyword.ofJson? inBlock (← Json.lookup "kind" fields)
  keyword.headerOfJson? (← Json.lookup keyword.argumentName fields)

/-- The header that the first two items of an array give. -/
def Header.ofItems? (inBlock : Bool) (kind argument : Json) : Option Header := do
  (← Keyword.ofJson? inBlock kind).headerOfJson? argument

mutual

/-- The command of a JSON value, which stands either in a block or by itself. -/
def Command.read? (inBlock : Bool) : Json → Option Command
  | .obj fields =>
    match Header.ofFields? inBlock fields with
    | some (.act action) => some (.act action)
    | some (.loop how) =>
      match blockField? fields with
      | some (some body) => some (.loop how body)
      | _ => none
    | none => none
  | .arr [kind, argument] =>
    match Header.ofItems? inBlock kind argument with
    | some (.act action) => some (.act action)
    | _ => none
  | .arr [kind, argument, block] =>
    match Header.ofItems? inBlock kind argument, blockOfJson? block with
    | some (.loop how), some body => some (.loop how body)
    | _, _ => none
  | _ => none

def blockOfJson? : Json → Option (List Command)
  | .arr items => blockOfItems? items
  | _ => none

def blockOfItems? : List Json → Option (List Command)
  | [] => some []
  | item :: rest =>
    match Command.read? true item with
    | none => none
    | some command =>
      match blockOfItems? rest with
      | none => none
      | some commands => some (command :: commands)

/-- What the last field named `body` says, if there is such a field. -/
def blockField? : List (String × Json) → Option (Option (List Command))
  | [] => none
  | (key, value) :: rest =>
    match blockField? rest with
    | some later => some later
    | none => if key = "body" then some (blockOfJson? value) else none

end

def Command.ofJson? (value : Json) : Option Command := Command.read? false value

def Program.ofJson? (value : Json) : Option Program := do
  (← value.arr?).mapM Command.ofJson?

end Boardwalk
