/-
PacketLayout.Qualifier — the options at the end of a field line.

A qualifier refers to a database (`R[npc,1]`), names a function
(`Fn[hero,x]`), forces a type (`T[uint]`), or passes the value on under
an alias (`P[@target]`). The last two may carry any text behind their
bracket; the first two end with it.

A qualifier that cannot be applied is dropped with a warning, and the
field stays as it was. The warning follows the first letters of the
qualifier: what looks like one of the four kinds is reported as a
failure of that kind, all else as unknown.
-/
import PacketLayout.Field
import PacketLayout.Journal
import PacketLayout.Text.Scan

namespace PacketLayout

open Text

inductive Qualifier where
  /-- A database by its symbol, with the arguments of the look-up. -/
  | reference (symbol : String) (arguments : List String)
  | function (arguments : List String)
  | type (forced : ForcedType)
  /-- An alias, `@` included. -/
  | param (paramAlias : String)
  deriving DecidableEq

/-- A warning, and the qualifier that it is about. -/
structure Remark where
  warning : Warning
  about : String
  deriving DecidableEq

/-- The remark as a journal entry at a source line. -/
def Remark.entry (remark : Remark) (line : Nat) : Entry :=
  .warning line remark.warning (some remark.about)

namespace Qualifier

/-- The whole text is one bracket: what is inside it. -/
def onlyBracketed? (text : List Char) : Option (List Char) :=
  match bracketed? text with
  | some (inside, []) => some inside
  | _ => none

/-- The comma-separated arguments inside a bracket: there is always a
first one, which may be empty. -/
def arguments (inside : List Char) : String × List String :=
  let parts := pieces ',' inside
  (String.ofList parts.1, parts.2.map String.ofList)

/-- An alias: `@` and one or more characters that are not white space. -/
def isAlias : List Char → Bool
  | '@' :: name => !name.isEmpty && !name.any isBlank
  | _ => false

/-- Reads a qualifier without white space around it. -/
def read? (text : List Char) : Option Qualifier :=
  if let some rest := after? "R[" text then
    (onlyBracketed? rest).map fun inside =>
      .reference (arguments inside).1 (arguments inside).2
  else if let some rest := after? "Fn[" text then
    (onlyBracketed? rest).map fun inside =>
      .function ((arguments inside).1 :: (arguments inside).2)
  else if let some rest := after? "T[" text then
    match bracketed? rest with
    | some (inside, _) => (ForcedType.ofName? (String.ofList inside)).map .type
    | none => none
  else if let some rest := after? "P[" text then
    match bracketed? rest with
    | some (inside, _) => if isAlias inside then some (.param (String.ofList inside)) else none
    | none => none
  else none

/-- The warning for a qualifier that cannot be read. -/
def unread (text : List Char) : Warning :=
  if startsWith "T" text then .unreadQualifier .type
  else if startsWith "P" text then .unreadQualifier .param
  else if startsWith "R[" text then .unreadQualifier .reference
  else if startsWith "Fn[" text then .unreadQualifier .function
  else .unknownQualifier (String.ofList text)

/-- Gives a field what the qualifier says. Only the database of a
reference can be wrong here. -/
def apply (field : Field) : Qualifier → Except Warning Field
  | .reference symbol arguments =>
    match ReferenceDb.ofSymbol? symbol with
    | some db => .ok { field with function := some (db.identifier :: arguments) }
    | none => .error (.unknownDatabase symbol)
  | .function arguments => .ok { field with function := some arguments }
  | .type forced => .ok { field with forcedType := some forced }
  | .param name => .ok { field with paramAlias := some name }

end Qualifier

/-- The field with one more qualifier, or the warning that the
qualifier gives. -/
def Field.qualify (field : Field) (text : List Char) : Except Warning Field :=
  match Qualifier.read? text with
  | some qualifier => qualifier.apply field
  | none => .error (Qualifier.unread text)

/-- Applies qualifiers from left to right. Each one may have a comment
behind it and white space around it; those that fail leave a remark. -/
def Field.qualifyAll (field : Field) : List (List Char) → Field × List Remark
  | [] => (field, [])
  | segment :: rest =>
    let text := trim (beforeComment segment)
    match field.qualify text with
    | .ok qualified => qualified.qualifyAll rest
    | .error warning =>
      let later := field.qualifyAll rest
      (later.1, ⟨warning, String.ofList text⟩ :: later.2)

end PacketLayout
