/-
PacketLayout.LineGrammar — the grammar of lines.

Each kind of line is a rule, and what the rule finds in a line is what the
line says. A rule takes a line as a whole or not at all. Nothing is skipped
between the rules of a sequence: where blanks may stand, `spaces` does.

* `LineRule.controlLine`, `LineRule.fragmentHeader`,
  `LineRule.packetHeader`, `LineRule.branchHeader`: lines.
* `LineRule.qualifier`: the options of field lines.
-/
import PacketLayout.BranchHeader
import PacketLayout.ControlLine
import PacketLayout.DeclarationHeader
import PacketLayout.Qualifier
import PacketLayout.Text.Grammar

namespace PacketLayout

open Text

/-- What the parts of lines are. -/
inductive LinePart where
  | reference
  | placeholder
  | repeatStart
  | repeatEnd
  | pack
  | name
  | description
  | bytes
  | inner
  | outer
  | database
  | function
  | type
  | param
  | arguments
  | typeName
  | paramAlias
  deriving DecidableEq

abbrev LineRule := Rule LinePart

namespace LineRule

open Rule

/-! ## Words and blanks -/

def spaces : LineRule :=
  many (one isSpace)

/-- A character inside a bracket. -/
def enclosed : LineRule :=
  except (word "]")

/-- A character of a name inside a bracket. -/
def named : LineRule :=
  except (either (word "]") (one isBlank))

/-- Bytes, as many as there are. -/
def hexBytes : LineRule :=
  several (all [one isHexDigit, one isHexDigit])

/-! ## Control lines -/

def fragmentBracket : LineRule :=
  all [word "Fragment[", part .name (several named), word "]"]

/-- The form of a control line, without the blanks at its end. -/
def control : LineRule :=
  firstOf [
    part .reference (all [word "+", spaces, fragmentBracket]),
    part .placeholder (all [word "+", spaces, word "SubCate"]),
    part .repeatStart (all [word "+", spaces, word "REP"]),
    part .repeatEnd (all [word "-", spaces, word "REP"]),
    part .pack (word "pack")]

def controlLine : LineRule :=
  both control spaces

/-! ## Headers -/

def fragmentHeader : LineRule :=
  both (all [optional (all [word "+", spaces]), fragmentBracket]) spaces

def packetHeader : LineRule :=
  both (all [word "Packet[", part .description (several enclosed), word "]:",
    part .bytes hexBytes]) spaces

def branchHeader : LineRule :=
  all [word "SubCate[",
    optional (part .description (several (except (either (word ":") (word "]"))))),
    optional (all [word ":", optional (part .inner (several enclosed))]),
    word "]",
    optional (all [word ":", part .outer (several any)])]

/-! ## Qualifiers -/

def qualifier : LineRule :=
  firstOf [
    part .database (all [word "R[", part .arguments (many enclosed), word "]"]),
    part .function (all [word "Fn[", part .arguments (many enclosed), word "]"]),
    part .type (all [word "T[",
      part .typeName
        (firstOf [word "byte", word "short", word "ushort", word "int", word "uint"]),
      word "]", many any]),
    part .param (all [word "P[", part .paramAlias (all [word "@", several named]), word "]",
      many any])]

end LineRule

/-! ## What the parts say -/

/-- A control line from its parts. -/
def ControlLine.ofFound? : Found LinePart → Option ControlLine
  | [(.reference, _), (.name, name)] => some (.fragmentRef (String.ofList name))
  | [(.placeholder, _)] => some .placeholder
  | [(.repeatStart, _)] => some .repeatStart
  | [(.repeatEnd, _)] => some .repeatEnd
  | [(.pack, _)] => some .pack
  | _ => none

/-- The name in the header of a fragment from its parts. -/
def fragmentOfFound? : Found LinePart → Option String
  | [(.name, name)] => some (String.ofList name)
  | _ => none

def PacketHeader.ofFound? : Found LinePart → Option PacketHeader
  | [(.description, description), (.bytes, bytes)] =>
    some ⟨String.ofList description, upper (String.ofList bytes)⟩
  | _ => none

/-- The written parts of a branch's header. A part that is not found is
empty. -/
def BranchHeader.Parts.ofFound (found : Found LinePart) : BranchHeader.Parts where
  description := (found.lookup .description).getD []
  inner := (found.lookup .inner).getD []
  outer := (found.lookup .outer).getD []

def Qualifier.ofFound? : Found LinePart → Option Qualifier
  | [(.database, _), (.arguments, inside)] =>
    some (.reference (arguments inside).1 (arguments inside).2)
  | [(.function, _), (.arguments, inside)] =>
    some (.function ((arguments inside).1 :: (arguments inside).2))
  | [(.type, _), (.typeName, name)] => (ForcedType.ofName? (String.ofList name)).map .type
  | [(.param, _), (.paramAlias, name)] => some (.param (String.ofList name))
  | _ => none

end PacketLayout
