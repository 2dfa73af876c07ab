import Boardwalk.Command.Keyword
import Boardwalk.Text.Blank

/-!
# What one line says

A line is a keyword and one argument, set apart by spaces and tabs. A line of
this form whose argument is in range is a header. For any other line the mistake
is named from the words of the line, which are cut at every blank character: first
the keyword is looked at, then the argument, then whatever follows.
-/
namespace Boardwalk

inductive Mistake where
  /-- The line does not start where a command may stand. -/
  | indentation (text : String)
  /-- The count of a counted loop is not a number in range. -/
  | repeatCount (text : String)
  | condition (word : String)
  | command (word : String)
  /-- The argument does not fit the keyword. -/
  | argument (keyword : Keyword) (word : String)
  | missing (keyword : Keyword)
  | trailing (keyword : Keyword) (rest : String)
  /-- Each word is fine, so what separates them is at fault. -/
  | separator (text : String)
  deriving DecidableEq

namespace Keyword

/-- The header of a keyword and its argument, if the argument fits and is in range. -/
def header? (argument : List Char) : Keyword → Option Header
  | .move => (Decimal.int64? argument).map fun steps => .act (.move steps)
  | .turn => (Side.ofLetters? argument).map fun side => .act (.turn side)
  | .counted => (Decimal.uint32? argument).map fun times => .loop (.counted times)
  | .guarded => (Condition.ofLetters? argument).map fun condition => .loop (.guarded condition)

/-- Whether an argument has the form that a keyword asks for; a number may be out of range. -/
def fits (argument : List Char) : Keyword → Bool
  | .move => (Decimal.integer? argument).isSome
  | .turn => (Side.ofLetters? argument).isSome
  | .counted => (Decimal.natural? argument).isSome
  | .guarded => (Condition.ofLetters? argument).isSome

/-- What is wrong with a line whose argument is not accepted. -/
def refuse (text argument : List Char) : Keyword → Mistake
  | .counted => .repeatCount (String.ofList text)
  | .guarded => .condition (String.ofList argument)
  | keyword => .argument keyword (String.ofList argument)

end Keyword

namespace Statement

/-- A character that sets the parts of a line apart. -/
def isGap (c : Char) : Bool := c == ' ' || c == '\t'

/-- The parts of a line between its spaces and tabs. -/
def parts (text : List Char) : List (List Char) :=
  (text.splitOnP isGap).filter fun part => !part.isEmpty

/-- The keyword and argument of a line of the right form. -/
def form? (text : List Char) : Option (Keyword × List Char) :=
  match parts text with
  | [word, argument] =>
    match Keyword.ofLetters? word with
    | some keyword => if keyword.fits argument then some (keyword, argument) else none
    | none => none
  | _ => none

def spaced (words : List (List Char)) : String :=
  String.ofList (List.intercalate [' '] words)

/-- What is wrong with a line that is not of the right form. -/
def diagnose (text : List Char) : Mistake :=
  match Text.words text with
  | [] => .command ""
  | word :: rest =>
    match Keyword.ofLetters? word with
    | none => .command (String.ofList word)
    | some keyword =>
      match rest with
      | [] => .missing keyword
      | argument :: rest =>
        if (keyword.header? argument).isNone then keyword.refuse text argument
        else if rest.isEmpty then .separator (String.ofList text)
        else .trailing keyword (spaced rest)

/-- The header of a line without blank characters around it, or what is wrong with the line. -/
def read (text : List Char) : Except Mistake Header :=
  match form? text with
  | none => .error (diagnose text)
  | some (keyword, argument) =>
    match keyword.header? argument with
    | some header => .ok header
    | none => .error (keyword.refuse text argument)

end Statement
end Boardwalk
