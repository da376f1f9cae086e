/-
PacketLayout.Field — what the decoder is told about one decoded value.

Next to its byte pattern a packet carries a list of fields: a name, and
optionally a type to decode the value as, a function or database that
gives it meaning, and an alias under which it is passed on. A few names
are fixed: those of padding, of the marks of a repeated group, and of
the bytes that tell one branch from another.
-/
import PacketLayout.OrderedMap
import PacketLayout.Text.Blank
import PacketLayout.Text.Hex

namespace PacketLayout

open Text

/-! ## Types -/

/-- A type that a qualifier can force on a value. -/
inductive ForcedType where
  | byte
  | short
  | ushort
  | int
  | uint
  deriving DecidableEq

namespace ForcedType

def name : ForcedType → String
  | .byte => "byte"
  | .short => "short"
  | .ushort => "ushort"
  | .int => "int"
  | .uint => "uint"

def all : List ForcedType :=
  [.byte, .short, .ushort, .int, .uint]

def ofName? (name : String) : Option ForcedType :=
  all.find? fun type => type.name == name

theorem ofName?_name (type : ForcedType) : ofName? type.name = some type := by
  cases type <;> rfl

/-- A type is found by its name, and by no other. -/
theorem ofName?_eq_some_iff {name : String} {type : ForcedType} :
    ofName? name = some type ↔ name = type.name := by
  constructor
  · intro found
    unfold ofName? at found
    have known := List.find?_some found
    exact (beq_iff_eq.mp known).symm
  · rintro rfl
    exact ofName?_name type

end ForcedType

/-! ## Databases -/

/-- A look-up database that a qualifier can refer to. -/
inductive ReferenceDb where
  | skill
  | npc
  | map
  | formatString
  | item
  deriving DecidableEq

namespace ReferenceDb

/-- The symbol under which layouts refer to a database. -/
def symbol : ReferenceDb → String
  | .skill => "SKILL"
  | .npc => "NPC"
  | .map => "MAP"
  | .formatString => "FS"
  | .item => "ITEM"

/-- The name of a database in the table. -/
def identifier : ReferenceDb → String
  | .skill => "db_Skill"
  | .npc => "db_NPC"
  | .map => "db_Map"
  | .formatString => "db_FormatString"
  | .item => "db_Item"

def all : List ReferenceDb :=
  [.skill, .npc, .map, .formatString, .item]

/-- Finds a database by its symbol, in any case and with white space
around it. -/
def ofSymbol? (text : String) : Option ReferenceDb :=
  all.find? fun db => db.symbol == upper (trimmed text)

theorem mem_all (db : ReferenceDb) : db ∈ all := by
  cases db <;> decide

theorem upper_symbol (db : ReferenceDb) : upper db.symbol = db.symbol := by
  cases db <;> decide

theorem symbol_inj {left right : ReferenceDb} (same : left.symbol = right.symbol) :
    left = right := by
  revert same
  cases left <;> cases right <;> decide

/-- A database is found by its symbol, and by no other text but for its
case and the white space around it. -/
theorem ofSymbol?_eq_some_iff {text : String} {db : ReferenceDb} :
    ofSymbol? text = some db ↔ equalIgnoringCase (trimmed text) db.symbol = true := by
  unfold equalIgnoringCase ofSymbol?
  rw [upper_symbol, beq_iff_eq]
  constructor
  · intro found
    have known := List.find?_some found
    exact (beq_iff_eq.mp known).symm
  · intro same
    cases found : all.find? fun other => other.symbol == upper (trimmed text) with
    | none =>
      have other := List.find?_eq_none.mp found db (mem_all db)
      exact absurd (beq_iff_eq.mpr same.symm) other
    | some first =>
      have known := List.find?_some found
      rw [symbol_inj ((beq_iff_eq.mp known).trans same)]

end ReferenceDb

/-! ## Fields -/

/-- The description of one decoded value. -/
structure Field where
  name : String
  forcedType : Option ForcedType := none
  /-- A function with its arguments, or a database with the arguments of
  the look-up. -/
  function : Option (List String) := none
  /-- The alias under which the value is passed on, `@` included. -/
  paramAlias : Option String := none
  deriving DecidableEq

namespace Field

def padding : Field := ⟨"Padding", none, none, none⟩

/-- Stands for a mark of a repeated group. -/
def placeholder : Field := ⟨"-", none, none, none⟩

/-- Stands for the bytes that tell a branch from the others. -/
def discriminator : Field := ⟨"- SubCate -", none, none, none⟩

end Field

/-! ## Entries -/

/-- What one signature of a packet decodes to: the description of its
branch, if it comes from one, and the fields in order. -/
structure SignatureEntry where
  description : Option String
  params : List Field
  deriving DecidableEq

/-- The signatures of one packet, each under its text. -/
abbrev SignatureSet := OrderedMap SignatureEntry

end PacketLayout
