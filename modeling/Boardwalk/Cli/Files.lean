/-!
# Files

The tool reads files by path. Files are given here as one working directory that
holds nothing but files; every other directory is taken to hold nothing. A path is
followed name by name from the left, and the first name that cannot be followed
decides what is wrong with the path.
-/
namespace Boardwalk.Cli

/-- Why a path leads to no text. -/
inductive FileError where
  | missing
  /-- The path goes on behind a file. -/
  | notDirectory
  /-- The path ends at a directory. -/
  | directory
  /-- The path or a name in it has too many bytes. -/
  | nameTooLong
  /-- The bytes of the file are no text. -/
  | notText
  | other (reason : String)

def FileError.message : FileError → String
  | .missing => "No such file or directory (os error 2)"
  | .notDirectory => "Not a directory (os error 20)"
  | .directory => "Is a directory (os error 21)"
  | .nameTooLong => "File name too long (os error 36)"
  | .notText => "stream did not contain valid UTF-8"
  | .other reason => reason

/-- The texts of files by path. -/
abbrev Files := String → Except FileError String

def textOfBytes (bytes : ByteArray) : Except FileError String :=
  match String.fromUTF8? bytes with
  | some text => .ok text
  | none => .error .notText

/-- The bytes of the files of a directory by name; of two files of one name the first counts. -/
abbrev Directory := List (String × ByteArray)

/-- What a path has led to so far. -/
inductive Place where
  | here
  | elsewhere
  | file (bytes : ByteArray)

def maxNameBytes : Nat := 255

def maxPathBytes : Nat := 4095

namespace Directory

/-- What a name leads to from a directory. -/
def find (directory : Directory) (inside : Bool) (name : String) : Except FileError Place :=
  if maxNameBytes < name.utf8ByteSize then .error .nameTooLong
  else if inside then
    match directory.lookup name with
    | some bytes => .ok (.file bytes)
    | none => .error .missing
  else .error .missing

/-- What the next name of a path leads to. -/
def enter (directory : Directory) (name : String) : Place → Except FileError Place
  | .file _ => .error .notDirectory
  | .here =>
    if name = "" ∨ name = "." then .ok .here
    else if name = ".." then .ok .elsewhere
    else directory.find true name
  | .elsewhere =>
    if name = "" ∨ name = "." ∨ name = ".." then .ok .elsewhere else directory.find false name

def follow (directory : Directory) : List String → Place → Except FileError Place
  | [], place => .ok place
  | name :: rest, place =>
    match directory.enter name place with
    | .ok next => directory.follow rest next
    | .error error => .error error

/-- What a path leads to; a path that starts with a slash does not start here. -/
def locate (directory : Directory) (path : String) : Except FileError Place :=
  if maxPathBytes < path.utf8ByteSize then .error .nameTooLong
  else
    let names := (path.toList.splitOn '/').map String.ofList
    directory.follow names (if path.toList.head? = some '/' then .elsewhere else .here)

/-- The files that paths lead to from a directory. -/
def files (directory : Directory) : Files := fun path =>
  match directory.locate path with
  | .ok (.file bytes) => textOfBytes bytes
  | .ok .here | .ok .elsewhere => .error .directory
  | .error error => .error error

end Directory
end Boardwalk.Cli
