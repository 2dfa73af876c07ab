import Boardwalk.Command.Basic

/-!
# Program text of a program

The listing of a program is its headers in reading order, each with the number of
blocks around it. The program text has one line for each entry of the listing.
-/
namespace Boardwalk

mutual

/-- The header of a command that stands at a depth, then those of its block. -/
def Command.listing (depth : Nat) : Command → List (Nat × Header)
  | .act action => [(depth, .act action)]
  | .loop how body => (depth, .loop how) :: blockListing (depth + 1) body

/-- The headers of a block whose commands stand at a depth. -/
def blockListing (depth : Nat) : List Command → List (Nat × Header)
  | [] => []
  | command :: rest => command.listing depth ++ blockListing depth rest

end

namespace Program

/-- Spaces that a block is indented by, relative to the header that opens it. -/
def indentWidth : Nat := 4

/-- The headers of a program in reading order, each with its depth. -/
def listing (program : Program) : List (Nat × Header) := blockListing 0 program

/-- The line of a header that stands at a depth, without its end. -/
def line (entry : Nat × Header) : String :=
  String.ofList (List.replicate (indentWidth * entry.1) ' ') ++ entry.2.text

/-- The program text: a line for each header, each line ended by a line feed. -/
def source (program : Program) : String :=
  String.join ((listing program).map fun entry => line entry ++ "\n")

end Program

@[simp] theorem blockListing_nil (depth : Nat) : blockListing depth [] = [] := rfl

@[simp] theorem blockListing_append (depth : Nat) (a b : Program) :
    blockListing depth (a ++ b) = blockListing depth a ++ blockListing depth b := by
  induction a with
  | nil => rfl
  | cons command a ih => simp [blockListing, ih]

theorem Command.listing_eq_cons (depth : Nat) (command : Command) :
    command.listing depth = (depth, command.header) :: blockListing (depth + 1) command.body := by
  cases command <;> rfl

end Boardwalk
