import Boardwalk.Text.Terminal

/-!
# Log records

Reading and running a program leave notices and events, which are data of their
own modules. A record is what a log shows of one: how severe it is, which part of
the tool it comes from, and a text. The text is one line unless it holds a name that
is not; in a printed log the further lines are set in, and nothing in the text steers
a terminal.
-/
namespace Boardwalk

/-- How severe a record is, the most severe first. -/
inductive Level where
  | error
  | warn
  | info
  | debug
  | trace
  deriving DecidableEq

namespace Level

/-- The place of a level, counted from the most severe. -/
def rank : Level → Nat
  | .error => 1
  | .warn => 2
  | .info => 3
  | .debug => 4
  | .trace => 5

def name : Level → String
  | .error => "ERROR"
  | .warn => "WARN"
  | .info => "INFO"
  | .debug => "DEBUG"
  | .trace => "TRACE"

end Level

structure Record where
  level : Level
  origin : String
  message : String
  deriving DecidableEq

/-- The records at least as severe as a level, in order. -/
def Record.atLeast (level : Level) (records : List Record) : List Record :=
  records.filter fun record => record.level.rank ≤ level.rank

namespace Record

/-- The lines of a record in a printed log. -/
def lines (record : Record) : List String :=
  let text := Text.visible (Text.indentRest 4 record.message.toList)
  (text.splitOn '\n').map String.ofList

def headline (record : Record) : Record :=
  { record with message := (record.lines.head?).getD "" }

def moreLines (record : Record) : List String := record.lines.tail

end Record
end Boardwalk
