import Boardwalk.Text.Blank
import Boardwalk.Text.Lines

/-!
# Lines of program text

The lines that a program is read from: blank lines are left out, but they count
in the numbers of the others, and tabs have become spaces.
-/
namespace Boardwalk

/-- A line of program text that is not blank, without tabs. -/
structure Line where
  /-- The place of the line in the whole text, counted from one. -/
  number : Nat
  text : String
  deriving DecidableEq

namespace Line

def indent (line : Line) : Nat := (line.text.toList.takeWhile (· == ' ')).length

/-- What a line says, without the blank characters around it. -/
def content (line : Line) : List Char := Text.trim line.text.toList

/-- The line of characters and their number, with tabs expanded. -/
def ofChars (tabWidth : Nat) (numbered : List Char × Nat) : Line where
  number := numbered.2
  text := String.ofList (Text.expandTabs tabWidth numbered.1)

/-- The lines of a program text that are not blank. -/
def ofSource (tabWidth : Nat) (source : String) : List Line :=
  (((Text.splitLines source.toList).zipIdx 1).filter
    fun numbered => !Text.allBlank numbered.1).map (ofChars tabWidth)

end Line
end Boardwalk
