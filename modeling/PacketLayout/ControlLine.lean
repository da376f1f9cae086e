/-
PacketLayout.ControlLine — body lines that structure a body.

`+ Fragment[name]` puts in a fragment, `+ SubCate` marks the place of the
branches, `+ REP` and `- REP` enclose a repeated group, and `pack` ends
the main body. Spaces and tabs may stand behind the sign and at the end
of the line, and nowhere else.
-/
import PacketLayout.Text.Blank
import PacketLayout.Text.Scan

namespace PacketLayout

open Text

inductive ControlLine where
  | fragmentRef (name : String)
  | placeholder
  | repeatStart
  | repeatEnd
  | pack
  deriving DecidableEq

/-- The rest of a line is spaces and tabs. -/
def endsLine (rest : List Char) : Bool :=
  rest.all isSpace

/-- A name of a fragment: one or more characters that are not white
space. -/
def isFragmentName (name : List Char) : Bool :=
  !name.isEmpty && !name.any isBlank

/-- Reads `Fragment[name]` up to the end of the line. -/
def readFragmentName? (text : List Char) : Option String :=
  match (after? "Fragment[" text).bind bracketed? with
  | some (name, rest) =>
    if isFragmentName name && endsLine rest then some (String.ofList name) else none
  | none => none

/-- What follows a sign and the blanks behind it. -/
def afterSign? (sign : String) (text : List Char) : Option (List Char) :=
  (after? sign text).map (List.dropWhile isSpace)

/-- The text is `word` up to the end of the line. -/
def isLastWord (word : String) (text : List Char) : Bool :=
  match after? word text with
  | some rest => endsLine rest
  | none => false

namespace ControlLine

def read? (text : List Char) : Option ControlLine :=
  if let some rest := afterSign? "+" text then
    if let some name := readFragmentName? rest then some (.fragmentRef name)
    else if isLastWord "SubCate" rest then some .placeholder
    else if isLastWord "REP" rest then some .repeatStart
    else none
  else if let some rest := afterSign? "-" text then
    if isLastWord "REP" rest then some .repeatEnd else none
  else if isLastWord "pack" text then some .pack
  else none

end ControlLine

end PacketLayout
