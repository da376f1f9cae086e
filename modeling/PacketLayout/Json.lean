/-
PacketLayout.Json — JSON values and their two layouts.

A value is a whole number, a text, a list, or a record whose members keep
their order. The compact layout has no white space; the indented one
puts each item and member on a line of its own, two spaces further in
than the value it belongs to, except that empty lists and records stay
closed.

In a text a quotation mark and a backslash are escaped, and so are the
characters below the space: five of them by a letter, the others by
their code in four hexadecimal digits. Everything else stands for
itself.
-/
namespace PacketLayout

/-- A JSON value. -/
inductive Json where
  | number (value : Int)
  | text (value : String)
  | list (items : List Json)
  | record (members : List (String × Json))

namespace Json

/-! ## Texts -/

/-- One small hexadecimal digit. -/
def hexDigit (value : Nat) : Char :=
  if value < 10 then Char.ofNat ('0'.toNat + value) else Char.ofNat ('a'.toNat + (value - 10))

/-- A character as it is written inside a text. -/
def escape (c : Char) : List Char :=
  if c = '"' then ['\\', '"']
  else if c = '\\' then ['\\', '\\']
  else if c = '\x08' then ['\\', 'b']
  else if c = '\t' then ['\\', 't']
  else if c = '\n' then ['\\', 'n']
  else if c = '\x0c' then ['\\', 'f']
  else if c = '\r' then ['\\', 'r']
  else if c.toNat < 0x20 then
    ['\\', 'u', '0', '0', hexDigit (c.toNat / 16), hexDigit (c.toNat % 16)]
  else [c]

/-- A text in quotation marks. -/
def quoted (text : String) : List Char :=
  '"' :: (text.toList.flatMap escape ++ ['"'])

/-! ## The compact layout -/

mutual

/-- A value without white space. -/
def compactChars : Json → List Char
  | .number value => (toString value).toList
  | .text value => quoted value
  | .list items => '[' :: (compactItems items ++ [']'])
  | .record members => '\x7b' :: (compactMembers members ++ ['\x7d'])

/-- Items with commas between them. -/
def compactItems : List Json → List Char
  | [] => []
  | [item] => compactChars item
  | item :: next :: rest => compactChars item ++ ',' :: compactItems (next :: rest)

/-- Members with commas between them. -/
def compactMembers : List (String × Json) → List Char
  | [] => []
  | [(name, value)] => quoted name ++ ':' :: compactChars value
  | (name, value) :: next :: rest =>
    quoted name ++ ':' :: (compactChars value ++ ',' :: compactMembers (next :: rest))

end

/-! ## The indented layout -/

/-- A new line at the given depth. -/
def newLine (depth : Nat) : List Char :=
  '\n' :: List.replicate (2 * depth) ' '

mutual

/-- A value whose lines after the first stand at `depth` or deeper. -/
def indentedChars (depth : Nat) : Json → List Char
  | .number value => (toString value).toList
  | .text value => quoted value
  | .list [] => ['[', ']']
  | .list (item :: items) =>
    '[' :: (indentedItems (depth + 1) (item :: items) ++ (newLine depth ++ [']']))
  | .record [] => ['\x7b', '\x7d']
  | .record (member :: members) =>
    '\x7b' :: (indentedMembers (depth + 1) (member :: members) ++ (newLine depth ++ ['\x7d']))

/-- Items on lines of their own, with commas between them. -/
def indentedItems (depth : Nat) : List Json → List Char
  | [] => []
  | [item] => newLine depth ++ indentedChars depth item
  | item :: next :: rest =>
    newLine depth ++ (indentedChars depth item ++ ',' :: indentedItems depth (next :: rest))

/-- Members on lines of their own, with commas between them. -/
def indentedMembers (depth : Nat) : List (String × Json) → List Char
  | [] => []
  | [(name, value)] =>
    newLine depth ++ (quoted name ++ ':' :: ' ' :: indentedChars depth value)
  | (name, value) :: next :: rest =>
    newLine depth ++ (quoted name ++ ':' :: ' ' ::
      (indentedChars depth value ++ ',' :: indentedMembers depth (next :: rest)))

end

/-- The two layouts. -/
inductive Layout where
  | compact
  | indented
  deriving DecidableEq

/-- The text of a value. -/
def render (layout : Layout) (value : Json) : String :=
  match layout with
  | .compact => String.ofList (compactChars value)
  | .indented => String.ofList (indentedChars 0 value)

end Json

end PacketLayout
