import Boardwalk.Command.Example
import Boardwalk.Run.Machine

/-!
# Command lines

What the words of a command line ask for. A line that asks for nothing that the
tool does has no meaning; which of several mistakes it makes does not matter.

An option with a value is written `--name value` or `--name=value`; the value of
the first form may not look like an option. No option may be given twice at one
level. After the word `--` every word is plain. The option `--verbose` is known
both before and after the name of the subcommand, each counting by itself.
-/
namespace Boardwalk.Cli

structure BoardChoice where
  /-- The file of a layout, if one is given. -/
  layout : Option String
  /-- The side of the blank board that is used otherwise. -/
  size : Nat

inductive Showing where
  | source
  | metrics
  | run

/-- What a command line asks for. -/
inductive Task where
  | version
  | run (path : String) (board : BoardChoice) (tabWidth : Nat) (limits : Limits) (json : Bool)
  | metrics (path : String) (tabWidth : Nat) (json : Bool)
  | builtIn (which : Example) (showing : Showing) (board : BoardChoice) (limits : Limits)
      (json : Bool)

/-- A task, and whether to say more about it. -/
structure Invocation where
  verbose : Bool
  task : Task

/-- What a word of a command line looks like. -/
inductive Word where
  /-- Two dashes: the words that follow are plain. -/
  | divider
  /-- An option by its name, with a value if an equals sign follows. -/
  | long (name : String) (value : Option String)
  | short (letters : List Char)
  | plain

/-- An option without its dashes, cut at its first equals sign. -/
def splitOption (text : List Char) : Word :=
  let name := String.ofList (text.takeWhile (· != '='))
  match text.dropWhile (· != '=') with
  | [] => .long name none
  | _ :: value => .long name (some (String.ofList value))

def Word.ofString (word : String) : Word :=
  match word.toList with
  | ['-', '-'] => .divider
  | '-' :: '-' :: rest => splitOption rest
  | ['-'] => .plain
  | '-' :: letters => .short letters
  | _ => .plain

def isPlain (word : String) : Bool :=
  match Word.ofString word with
  | .plain => true
  | _ => false

/-- The names of the options that a subcommand knows. -/
structure Vocabulary where
  flags : List String
  options : List String

/-- The words of a subcommand, sorted. -/
structure Arguments where
  plain : List String
  flags : List String
  /-- Options that are given, with their values. -/
  options : List (String × String)

namespace Arguments

def start : Arguments := ⟨[], [], []⟩

def addPlain (arguments : Arguments) (words : List String) : Arguments :=
  { arguments with plain := arguments.plain ++ words }

/-- Adds a flag that is known and not given yet. -/
def addFlag? (known : Vocabulary) (arguments : Arguments) (name : String) : Option Arguments :=
  if known.flags.contains name && !arguments.flags.contains name then
    some { arguments with flags := name :: arguments.flags }
  else none

/-- Adds an option that is known and not given yet. -/
def addOption? (known : Vocabulary) (arguments : Arguments) (name value : String) :
    Option Arguments :=
  if known.options.contains name && (arguments.options.lookup name).isNone then
    some { arguments with options := (name, value) :: arguments.options }
  else none

/-- Adds the flags of letters behind one dash, of which `v` is the only one known. -/
def addLetters? (known : Vocabulary) (arguments : Arguments) : List Char → Option Arguments
  | [] => some arguments
  | letter :: rest =>
    if letter = 'v' then
      match arguments.addFlag? known "verbose" with
      | some arguments => arguments.addLetters? known rest
      | none => none
    else none

def read? (known : Vocabulary) (arguments : Arguments) : List String → Option Arguments
  | [] => some arguments
  | word :: rest =>
    match Word.ofString word with
    | .divider => some (arguments.addPlain rest)
    | .plain => (arguments.addPlain [word]).read? known rest
    | .short letters =>
      match arguments.addLetters? known letters with
      | some arguments => arguments.read? known rest
      | none => none
    | .long name (some value) =>
      match arguments.addOption? known name value with
      | some arguments => arguments.read? known rest
      | none => none
    | .long name none =>
      if known.options.contains name then
        match rest with
        | [] => none
        | value :: rest =>
          if isPlain value then
            match arguments.addOption? known name value with
            | some arguments => arguments.read? known rest
            | none => none
          else none
      else
        match arguments.addFlag? known name with
        | some arguments => arguments.read? known rest
        | none => none

def has (arguments : Arguments) (name : String) : Bool := arguments.flags.contains name

def only? (arguments : Arguments) : Option String :=
  match arguments.plain with
  | [word] => some word
  | _ => none

/-- The number of an option, or the usual one if the option is not given. -/
def number? (arguments : Arguments) (name : String) (usual : Nat) : Option Nat :=
  match arguments.options.lookup name with
  | some value => Decimal.atMost? (UInt64.size - 1) value.toList
  | none => some usual

/-- The file name of a word; no file has an empty name. -/
def path? (word : String) : Option String := if word.isEmpty then none else some word

/-- The file name of an option, if the option is given. -/
def file? (arguments : Arguments) (name : String) : Option (Option String) :=
  match arguments.options.lookup name with
  | some value => (path? value).map some
  | none => some none

def board? (arguments : Arguments) : Option BoardChoice := do
  let layout ← arguments.file? "grid"
  let size ← arguments.number? "size" 10
  some ⟨layout, size⟩

def limits? (arguments : Arguments) : Option Limits := do
  let passes ← arguments.number? "max-iterations" Limits.standard.passes
  let steps ← arguments.number? "max-steps" Limits.standard.steps
  some ⟨passes, steps⟩

def tabWidth? (arguments : Arguments) : Option Nat := arguments.number? "tab-width" 4

end Arguments

inductive Subcommand where
  | run
  | metrics
  | builtIn

namespace Subcommand

def ofWord? : String → Option Subcommand
  | "run" => some .run
  | "metrics" => some .metrics
  | "example" => some .builtIn
  | _ => none

def vocabulary : Subcommand → Vocabulary
  | .run =>
    ⟨["verbose", "json"], ["grid", "size", "tab-width", "max-iterations", "max-steps"]⟩
  | .metrics => ⟨["verbose", "json"], ["tab-width"]⟩
  | .builtIn =>
    ⟨["verbose", "json", "metrics", "source"], ["grid", "size", "max-iterations", "max-steps"]⟩

/-- The task of a subcommand with its words sorted. -/
def task? (arguments : Arguments) : Subcommand → Option Task
  | .run => do
    let path ← Arguments.path? (← arguments.only?)
    let board ← arguments.board?
    let tabWidth ← arguments.tabWidth?
    let limits ← arguments.limits?
    some (.run path board tabWidth limits (arguments.has "json"))
  | .metrics => do
    let path ← Arguments.path? (← arguments.only?)
    let tabWidth ← arguments.tabWidth?
    some (.metrics path tabWidth (arguments.has "json"))
  | .builtIn => do
    let which ← (Example.ofWord (← arguments.only?)).toOption
    let board ← arguments.board?
    let limits ← arguments.limits?
    let showing :=
      if arguments.has "source" then Showing.source
      else if arguments.has "metrics" then Showing.metrics
      else Showing.run
    some (.builtIn which showing board limits (arguments.has "json"))

end Subcommand

namespace Invocation

/-- What the letters behind one dash before a subcommand ask for. -/
inductive Letters where
  | version
  | verbose (given : Bool)

/-- Reads letters before a subcommand; the version is shown as soon as it is asked for. -/
def letters? (verbose : Bool) : List Char → Option Letters
  | [] => some (.verbose verbose)
  | letter :: rest =>
    if letter = 'V' then some .version
    else if letter = 'v' && !verbose then letters? true rest
    else none

/-- What a command line asks for, of which the words before a subcommand are read from the
left. -/
def read? (verbose : Bool) : List String → Option Invocation
  | [] => none
  | word :: rest =>
    match Word.ofString word with
    | .divider => none
    | .plain => do
      let subcommand ← Subcommand.ofWord? word
      let arguments ← Arguments.start.read? subcommand.vocabulary rest
      let task ← subcommand.task? arguments
      some ⟨verbose || arguments.has "verbose", task⟩
    | .short letters =>
      match letters? verbose letters with
      | some .version => some ⟨verbose, .version⟩
      | some (.verbose verbose) => read? verbose rest
      | none => none
    | .long name none =>
      if name = "version" then some ⟨verbose, .version⟩
      else if name = "verbose" && !verbose then read? true rest
      else none
    | .long _ (some _) => none

end Invocation

def Invocation.ofWords? (words : List String) : Option Invocation := Invocation.read? false words

end Boardwalk.Cli
