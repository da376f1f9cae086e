/-
PacketLayout.SignatureTable — the table that the decoder reads.

The table lists the compiled packets under their headers, in the order
of their declarations, each with its description and its signatures. It
ends with the time of its making and with who made it: the name of the
builder, its version, and the revision of the table's form.
-/
import PacketLayout.Json
import PacketLayout.Registry

namespace PacketLayout

/-- The name of the builder. -/
def builderName : String := "sigbuilder"

/-- The version of the builder. -/
def builderVersion : String := "0.1.0"

/-- The revision of the table's form. -/
def formatRevision : String := "5"

/-- A packet in the table. -/
structure PacketEntry where
  description : String
  signatures : SignatureSet
  deriving DecidableEq

/-- The compiled packets, and when and by whom they were compiled. -/
structure SignatureTable where
  packets : OrderedMap PacketEntry
  /-- Milliseconds since the start of 1970. -/
  timestamp : Int
  builder : List String
  deriving DecidableEq

namespace SignatureTable

/-- The table of the packets that have been compiled. -/
def assemble (declared : Declarations) (results : Results) (timestamp : Nat) :
    SignatureTable where
  packets := declared.packets.entries.foldl
    (fun made (header, packet) =>
      match results.packets.get? header with
      | some signatures => made.insert packet.header ⟨packet.description, signatures⟩
      | none => made) ∅
  timestamp := timestamp
  builder := [builderName, "build " ++ builderVersion, formatRevision]

/-- The number of signatures of all packets. -/
def signatureCount (table : SignatureTable) : Nat :=
  table.packets.values.foldl (fun count packet => count + packet.signatures.size) 0

end SignatureTable

/-! ## As JSON -/

/-- A member that is only there if it has a value. -/
def optionalMember {α : Type} (name : String) (value : Option α) (toJson : α → Json) :
    List (String × Json) :=
  match value with
  | some present => [(name, toJson present)]
  | none => []

def Field.toJson (field : Field) : Json :=
  .record (("name", .text field.name)
    :: (optionalMember "type" field.forcedType (fun forced => .text forced.name)
      ++ optionalMember "func" field.function (fun words => .list (words.map .text))
      ++ optionalMember "param" field.paramAlias .text))

def SignatureEntry.toJson (entry : SignatureEntry) : Json :=
  .record (optionalMember "desc" entry.description .text
    ++ [("params", .list (entry.params.map Field.toJson))])

def signaturesToJson (set : SignatureSet) : Json :=
  .record (set.entries.map fun (key, entry) => (key, entry.toJson))

def PacketEntry.toJson (packet : PacketEntry) : Json :=
  .record [("desc", .text packet.description),
    ("signature", signaturesToJson packet.signatures)]

def SignatureTable.toJson (table : SignatureTable) : Json :=
  .record (table.packets.entries.map (fun (header, packet) => (header, packet.toJson))
    ++ [("_timestamp", .number table.timestamp),
        ("_builder", .list (table.builder.map .text))])

/-- The text of a table. -/
def SignatureTable.render (table : SignatureTable) (layout : Json.Layout) : String :=
  table.toJson.render layout

end PacketLayout
