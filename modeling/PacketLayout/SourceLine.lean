/-
PacketLayout.SourceLine — from the text of a file to lines of code.

A layout can stand in a file of its own or in the doc comments of
another file, so one `/// ` in front of a line is taken off. `//` starts
a comment. What is left, without the white space around it, is the code
of the line; a line without code is skipped, but keeps its number.
-/
import PacketLayout.Failure
import PacketLayout.Text.Blank
import PacketLayout.Text.Scan

namespace PacketLayout

open Text

/-- The code of a line, if it has any. -/
def code? (line : List Char) : Option (List Char) :=
  let text := trim line
  let code := trim (beforeComment (trim ((after? "/// " text).getD text)))
  if code = [] then none else some code

/-- The lines of a text; `current` holds the characters of the line being
read, last one first. What follows the last line break is a line only if
it is not empty. -/
def linesFrom (current : List Char) : List Char → List (List Char)
  | [] => if current = [] then [] else [current.reverse]
  | '\n' :: rest => current.reverse :: linesFrom [] rest
  | c :: rest => linesFrom (c :: current) rest

theorem linesFrom_newline (current rest : List Char) :
    linesFrom current ('\n' :: rest) = current.reverse :: linesFrom [] rest := by
  rw [linesFrom]

theorem linesFrom_other {c : Char} (other : c ≠ '\n') (current rest : List Char) :
    linesFrom current (c :: rest) = linesFrom (c :: current) rest := by
  rw [linesFrom]
  exact fun same => absurd same other

/-- The lines of a source, numbered from one. -/
def sourceLines (source : String) : List (List Char × Nat) :=
  (linesFrom [] source.toList).zipIdx 1

/-- The code of a source, line by line; lines without code are left
out. -/
def codeLines (source : String) : List Site :=
  (sourceLines source).filterMap fun (line, number) =>
    (code? line).map fun code => ⟨number, String.ofList code⟩

end PacketLayout
