/-
PacketLayout.CommandLine.FileTree — the files that a run can see.

A tree holds directories and files, and has a current directory. A path
starts there, or at the root if it is absolute, and is walked name by
name, as a system does it: empty names and `.` stay where they are, `..`
goes up as far as the root, and every name but the last must be that of
a directory. Names and paths have a greatest length.

Reading gives the bytes of a file. Opening a path for writing puts an
empty file into a directory that is there, and the bytes are put into it
afterwards, as far as there is room for them. Files can be locked, and
are neither read nor written then.

* `fileSystem`: a tree as a file system.
-/
import PacketLayout.CommandLine.Files
import PacketLayout.Text.Scan

namespace PacketLayout.CommandLine

open Text

/-- Names from the root downward. -/
abbrev Path := List String

/-- A file and its bytes. -/
structure File where
  path : Path
  content : ByteArray

/-- Directories and files, seen from a current directory. -/
structure FileTree where
  current : Path := []
  directories : List Path := []
  files : List File := []
  /-- Where files can be neither read nor written. -/
  locked : List Path := []
  /-- How many bytes there is room for, where there is not room for
  any number. The full device takes none. -/
  room : List (Path × Nat) := [(["dev", "full"], 0)]

/-- What a path leads to. -/
inductive Target where
  | directory (path : Path)
  | file (file : File)
  /-- A name that is not taken, in a directory that is there. -/
  | free (path : Path)

/-- A path as it is walked: where it starts, and the names it goes
through. -/
structure Route where
  start : Path
  names : List String

/-- The route without the empty names at its end, which stand for slashes
there. -/
def Route.trimmed (route : Route) : Route :=
  { route with names := (route.names.reverse.dropWhile (· == "")).reverse }

namespace FileTree

def isDirectory (tree : FileTree) (path : Path) : Bool :=
  path.isEmpty || tree.directories.contains path

def file? (tree : FileTree) (path : Path) : Option File :=
  tree.files.find? fun file => file.path == path

/-- The longest name a file can have, in bytes. -/
def maxNameBytes : Nat := 255

/-- The longest path that is walked, in bytes. -/
def maxPathBytes : Nat := 4095

/-- What a name stands for in the directory `here`. -/
def lookUp (tree : FileTree) (here : Path) (name : String) : Except FileError Target :=
  if name = "" ∨ name = "." then .ok (.directory here)
  else if name = ".." then .ok (.directory here.dropLast)
  else if name.utf8ByteSize > maxNameBytes then .error .nameTooLong
  else if tree.isDirectory (here ++ [name]) then .ok (.directory (here ++ [name]))
  else
    match tree.file? (here ++ [name]) with
    | some file => .ok (.file file)
    | none => .ok (.free (here ++ [name]))

/-- Walks on through directories. -/
def walk (tree : FileTree) (here : Path) : List String → Except FileError Path
  | [] => .ok here
  | name :: rest =>
    match tree.lookUp here name with
    | .ok (.directory there) => tree.walk there rest
    | .ok (.file _) => .error .notDirectory
    | .ok (.free _) => .error .notFound
    | .error fault => .error fault

/-- The names between the slashes of a text. -/
def names (path : String) : List String :=
  let (first, rest) := pieces '/' path.toList
  (first :: rest).map String.ofList

/-- How a path is walked. -/
def route (tree : FileTree) (path : String) : Except FileError Route :=
  if path = "" then .error .notFound
  else if path.utf8ByteSize > maxPathBytes then .error .nameTooLong
  else
    match names path with
    | "" :: rest => .ok ⟨[], rest⟩
    | names => .ok ⟨tree.current, names⟩

/-- What a route leads to. -/
def follow (tree : FileTree) (route : Route) : Except FileError Target :=
  match route.names.getLast? with
  | none => .ok (.directory route.start)
  | some name =>
    match tree.walk route.start route.names.dropLast with
    | .ok here => tree.lookUp here name
    | .error fault => .error fault

/-- A place that is not locked. -/
def unlocked (tree : FileTree) (place : Path) : Except FileError Path :=
  if tree.locked.contains place then .error .permissionDenied else .ok place

/-- The bytes of a file. -/
def read (tree : FileTree) (path : String) : Except FileError ByteArray := do
  match ← tree.follow (← tree.route path) with
  | .directory _ => .error .isDirectory
  | .free _ => .error .notFound
  | .file file =>
    let _ ← tree.unlocked file.path
    .ok file.content

/-- Where a write to a path goes. A path that ends with a slash names a
directory, which cannot be written, even if it is not there. -/
def writable (tree : FileTree) (path : String) : Except FileError Path := do
  let route ← tree.route path
  let kept := route.trimmed
  if kept.names ≠ route.names then
    let _ ← tree.walk kept.start kept.names.dropLast
    .error .isDirectory
  else
    match ← tree.follow route with
    | .directory _ => .error .isDirectory
    | .free place => tree.unlocked place
    | .file file => tree.unlocked file.path

/-- The place of the file that a path leads to. -/
def place? (tree : FileTree) (path : String) : Option Path :=
  match tree.route path >>= tree.follow with
  | .ok (.file file) => some file.path
  | _ => none

/-- Puts a file into the tree, in the place of the one at its path, if
there is one. -/
def put (tree : FileTree) (file : File) : FileTree :=
  { tree with files := tree.files.filter (fun other => other.path != file.path) ++ [file] }

/-- Opens a path for writing. -/
def create (tree : FileTree) (path : String) : Except FileError Path × FileTree :=
  match tree.writable path with
  | .error fault => (.error fault, tree)
  | .ok place => (.ok place, tree.put ⟨place, ByteArray.empty⟩)

/-- Whether there is room for so many bytes at a place. -/
def hasRoom (tree : FileTree) (place : Path) (size : Nat) : Bool :=
  (tree.room.lookup place).all (size ≤ ·)

/-- The bytes that there is room for at a place. -/
def fitting (tree : FileTree) (place : Path) (bytes : ByteArray) : ByteArray :=
  bytes.extract 0 ((tree.room.lookup place).getD bytes.size)

/-- Puts bytes into the file at a place, as far as there is room for
them. -/
def writeAll (tree : FileTree) (place : Path) (bytes : ByteArray) :
    Except FileError Unit × FileTree :=
  if tree.hasRoom place bytes.size then (.ok (), tree.put ⟨place, bytes⟩)
  else (.error .noSpace, tree.put ⟨place, tree.fitting place bytes⟩)

/-- A tree as a file system. -/
def fileSystem : FileSystem FileTree Path where
  content? tree place := (tree.file? place).map File.content
  place? := place?
  read := read
  create := create
  writeAll := writeAll

/-- Adds the directories above a path. -/
def addParents (tree : FileTree) (path : Path) : FileTree :=
  { tree with
    directories := tree.directories ++ (List.range path.length).map fun n => path.take n }

/-- Adds a directory and those above it. -/
def addDirectory (tree : FileTree) (path : Path) : FileTree :=
  let above := tree.addParents path
  { above with directories := above.directories ++ [path] }

/-- Adds a file and the directories above it. -/
def addFile (tree : FileTree) (file : File) : FileTree :=
  (tree.addParents file.path).put file

end FileTree

end PacketLayout.CommandLine
