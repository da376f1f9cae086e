/-
PacketLayout.CommandLine.Files — what a run asks of a file system.

The command reads one file and writes one. It does so through a
`FileSystem`, which it is given: files are kept at places, paths lead to
places, and a write first opens its path, which makes the file or empties
it, and then puts the bytes there. Each of these can fail, the last one
after some of the bytes are in the file.

`FileSystem.Lawful` is all that is relied on. In the main, a path that
cannot be opened changes nothing, and a path that can be opened changes
nothing but the place it leads to.
-/
namespace PacketLayout.CommandLine

/-- Why a file cannot be read or written. -/
inductive FileError where
  | notFound
  | permissionDenied
  | notDirectory
  | isDirectory
  | noSpace
  | nameTooLong
  /-- The bytes of a file are not UTF-8. -/
  | invalidText
  /-- Any other fault, as the system words it. -/
  | other (text : String)
  deriving DecidableEq

def FileError.message : FileError → String
  | .notFound => "No such file or directory (os error 2)"
  | .permissionDenied => "Permission denied (os error 13)"
  | .notDirectory => "Not a directory (os error 20)"
  | .isDirectory => "Is a directory (os error 21)"
  | .noSpace => "No space left on device (os error 28)"
  | .nameTooLong => "File name too long (os error 36)"
  | .invalidText => "stream did not contain valid UTF-8"
  | .other text => text

/-- The text that bytes stand for. -/
def textOf (bytes : ByteArray) : Except FileError String :=
  match String.fromUTF8? bytes with
  | some text => .ok text
  | none => .error .invalidText

/-- The operations of a file system, by its state and the places in it. -/
structure FileSystem (Tree Place : Type) where
  /-- The bytes of the file at a place. A place that keeps none, such as
  that of a device, has no file. -/
  content? : Tree → Place → Option ByteArray
  /-- The place that a path leads to. -/
  place? : Tree → String → Option Place
  /-- Reads a file to its end. -/
  read : Tree → String → Except FileError ByteArray
  /-- Opens a path for writing. The file is made, or emptied. -/
  create : Tree → String → Except FileError Place × Tree
  /-- Writes bytes to a place that has been opened, all of them or, at a
  fault, some. -/
  writeAll : Tree → Place → ByteArray → Except FileError Unit × Tree

/-- What a write comes to. -/
structure Written (Tree Place : Type) where
  result : Except FileError Unit
  /-- The place that was opened. -/
  opened : Option Place
  tree : Tree

namespace FileSystem

variable {Tree Place : Type}

/-- Reads a text. -/
def readText (files : FileSystem Tree Place) (tree : Tree) (path : String) :
    Except FileError String :=
  match files.read tree path with
  | .ok bytes => textOf bytes
  | .error fault => .error fault

/-- Makes or replaces a file: opens its path, and writes the bytes. -/
def write (files : FileSystem Tree Place) (tree : Tree) (path : String) (bytes : ByteArray) :
    Written Tree Place :=
  match files.create tree path with
  | (.error fault, after) => ⟨.error fault, none, after⟩
  | (.ok place, opened) =>
    match files.writeAll opened place bytes with
    | (result, after) => ⟨result, some place, after⟩

/-- What the command relies on. -/
structure Lawful (files : FileSystem Tree Place) : Prop where
  /-- A path that cannot be opened changes no file. -/
  create_error {tree after : Tree} {path : String} {fault : FileError} :
    files.create tree path = (.error fault, after) → files.content? after = files.content? tree
  /-- To open a path changes at most the file it leads to. -/
  create_other {tree opened : Tree} {path : String} {place other : Place} :
    files.create tree path = (.ok place, opened) → other ≠ place →
      files.content? opened other = files.content? tree other
  /-- To write to a place changes at most the file there. -/
  writeAll_other {tree after : Tree} {place other : Place} {bytes : ByteArray}
    {result : Except FileError Unit} :
    files.writeAll tree place bytes = (result, after) → other ≠ place →
      files.content? after other = files.content? tree other
  /-- A path still leads to the place where it was opened, whatever has
  been written there. -/
  place?_writeAll {tree opened after : Tree} {path : String} {place : Place} {bytes : ByteArray}
    {result : Except FileError Unit} :
    files.create tree path = (.ok place, opened) →
      files.writeAll opened place bytes = (result, after) → files.place? after path = some place
  /-- A file that has been opened, and then written without a fault, holds
  the bytes. -/
  writeAll_ok {tree opened after : Tree} {path : String} {place : Place} {bytes : ByteArray} :
    files.create tree path = (.ok place, opened) → (files.content? opened place).isSome →
      files.writeAll opened place bytes = (.ok (), after) →
      files.content? after place = some bytes

end FileSystem

end PacketLayout.CommandLine
