import Boardwalk.Command.Basic

/-!
# Keywords

There are four kinds of command, and each has a keyword, which is the first word
of its line in program text. Keywords are read without regard to case.
-/
namespace Boardwalk

/-- The kind of a command. -/
inductive Keyword where
  | move
  | turn
  | counted
  | guarded
  deriving DecidableEq

namespace Keyword

def word : Keyword → String
  | .move => "Move"
  | .turn => "Turn"
  | .counted => "Repeat"
  | .guarded => "RepeatUntil"

/-- The keyword that a word is, ignoring case. -/
def ofLetters? (letters : List Char) : Option Keyword :=
  if Text.sameLetters letters Keyword.move.word.toList then some .move
  else if Text.sameLetters letters Keyword.turn.word.toList then some .turn
  else if Text.sameLetters letters Keyword.counted.word.toList then some .counted
  else if Text.sameLetters letters Keyword.guarded.word.toList then some .guarded
  else none

@[simp] theorem ofLetters?_word (keyword : Keyword) :
    ofLetters? keyword.word.toList = some keyword := by
  cases keyword <;> decide

end Keyword
end Boardwalk
