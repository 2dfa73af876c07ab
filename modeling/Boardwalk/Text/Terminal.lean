/-!
# Text without terminal control

A terminal takes some characters of a text as control sequences. An escape
character starts one, which may go on with a bracket and parameters or hold a whole
string; the rest of the text is what the terminal shows. A log that no terminal
shows holds that rest alone.

White space that stands inside a sequence is shown, and so is what follows it: the
sequence waits until the next control character and then goes on.
-/
namespace Boardwalk.Text

/-- Where in a control sequence a character stands. -/
inductive Control where
  | none
  | escape
  /-- Behind an escape character and intermediate characters. -/
  | escapeIntermediate
  /-- Behind the bracket of a control function. -/
  | function
  | deviceStart
  /-- Among the parameters of a device string. -/
  | deviceParameters
  /-- Among the intermediate characters of a device string. -/
  | deviceIntermediate
  /-- In the data of a device string, well formed or not, or of a string to a program. -/
  | data
  /-- In a command to the terminal's system. -/
  | systemCommand
  deriving DecidableEq

namespace Control

def within (first last : Nat) (c : Char) : Bool := first ≤ c.toNat && c.toNat ≤ last

/-- The characters that stand between the parameters and the end of a sequence. -/
def isIntermediate : Char → Bool := within 0x20 0x2f

/-- Digits and the marks between them. -/
def isParameter : Char → Bool := within 0x30 0x3b

/-- Marks that may stand only in front of the parameters. -/
def isMark : Char → Bool := within 0x3c 0x3f

/-- The characters that end a control function and the head of a device string. -/
def isFinal : Char → Bool := within 0x40 0x7e

/-- What the character behind an escape character starts. -/
def ofEscaped (c : Char) : Control :=
  match c with
  | '[' => function
  | ']' => systemCommand
  | 'P' => deviceStart
  | 'X' | '^' | '_' => data
  | _ =>
    if isIntermediate c then escapeIntermediate
    else if within 0x30 0x7e c then .none
    else escape

/-- The place behind a character of seven bits that starts or breaks off no sequence. -/
def advance (c : Char) : Control → Control
  | .none => .none
  | escape => ofEscaped c
  | escapeIntermediate => if within 0x30 0x7e c then .none else escapeIntermediate
  | function => if isFinal c then .none else function
  | deviceStart =>
    if isIntermediate c then deviceIntermediate
    else if isParameter c || isMark c then deviceParameters
    else if isFinal c then data
    else deviceStart
  | deviceParameters =>
    if isIntermediate c then deviceIntermediate
    else if isMark c || isFinal c then data
    else deviceParameters
  | deviceIntermediate =>
    if isParameter c || isMark c || isFinal c then data else deviceIntermediate
  | data => data
  | systemCommand => if c = '\x07' then .none else systemCommand

/-- The place behind a character of seven bits. -/
def next (c : Char) (control : Control) : Control :=
  if c = '\x1b' then escape
  else if c = '\x18' ∨ c = '\x1a' then .none
  else control.advance c

/-- Whether white space at this place is carried out rather than taken for a part of a string. -/
def obeysSpace : Control → Bool
  | .none | escape | escapeIntermediate | function => true
  | deviceStart | deviceParameters | deviceIntermediate | data | systemCommand => false

/-- Whether a character of seven bits is shown at this place. -/
def shows (c : Char) (control : Control) : Bool :=
  (control.obeysSpace && (within 0x09 0x0a c || within 0x0c 0x0d c))
    || (control = .none && within 0x20 0x7e c)

/-- Whether one of the bytes of a character is the mark that closes the data at this place. -/
def isClosedBy (c : Char) (control : Control) : Bool :=
  control = data && (String.singleton c).toUTF8.toList.contains 0x9c

end Control

/-- What a terminal has made of the characters so far. -/
structure Screen where
  control : Control
  /-- Whether the last character was shown, which keeps a sequence waiting. -/
  showing : Bool

namespace Screen

def start : Screen := ⟨.none, false⟩

/-- The screen behind a character, and whether the character is shown. -/
def step (screen : Screen) (c : Char) : Screen × Bool :=
  if 0x80 ≤ c.toNat then
    if screen.showing ∨ screen.control = .none then (⟨.none, true⟩, true)
    else if screen.control.isClosedBy c then (⟨.none, false⟩, false)
    else (screen, false)
  else if screen.showing ∧ Control.none.shows c then (screen, true)
  else
    let shown := !screen.showing && screen.control.shows c
    (⟨screen.control.next c, shown⟩, shown)

def shown (screen : Screen) : List Char → List Char
  | [] => []
  | c :: rest =>
    match screen.step c with
    | (next, true) => c :: next.shown rest
    | (next, false) => next.shown rest

end Screen

def visible (text : List Char) : List Char := Screen.start.shown text

/-- A text with every line but the first set in by a number of spaces. -/
def indentRest (width : Nat) (text : List Char) : List Char :=
  text.flatMap fun c => if c = '\n' then c :: List.replicate width ' ' else [c]

end Boardwalk.Text
