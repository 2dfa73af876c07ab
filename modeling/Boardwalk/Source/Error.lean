import Boardwalk.Source.Statement

/-!
# Errors in program text

An error is the number of a line and what is wrong with it. Its message quotes the
line or the word at fault as it was written.
-/
namespace Boardwalk

/-- The first line of a program text that cannot be read. -/
structure ParseError where
  line : Nat
  mistake : Mistake
  deriving DecidableEq

namespace ParseError

def isIndentation (error : ParseError) : Bool :=
  match error.mistake with
  | .indentation _ => true
  | _ => false

def message (error : ParseError) : String :=
  let line := Decimal.ofNat error.line
  match error.mistake with
  | .indentation text => "Unexpected indentation at line " ++ line ++ ": '" ++ text ++ "'"
  | .repeatCount text => "Invalid repeat count at line " ++ line ++ ": '" ++ text ++ "'"
  | .condition word =>
    "Unknown condition '" ++ word ++ "' at line " ++ line ++ ", expected WallAhead or GridEdge"
  | .command word => "Unknown command '" ++ word ++ "' at line " ++ line
  | .argument keyword word =>
    "Invalid argument '" ++ word ++ "' for " ++ keyword.word ++ " at line " ++ line
  | .missing keyword => "Missing argument for " ++ keyword.word ++ " at line " ++ line
  | .trailing keyword rest =>
    "Unexpected '" ++ rest ++ "' after " ++ keyword.word ++ " at line " ++ line
  | .separator text => "Cannot read line " ++ line ++ ": '" ++ text ++ "'"

end ParseError
end Boardwalk
