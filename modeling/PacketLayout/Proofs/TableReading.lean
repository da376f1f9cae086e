/-
PacketLayout.Proofs.TableReading — the table is read back from its text.

`SignatureTable.ofJson?` looks for what a table is made of in a JSON value:
a member by its name, and what a member may leave out by its absence. Only
the time and the builder are found by their places, because a packet may
have any header.

Each reader is tried on what is written for it, from a field up to the
whole table. Together with the reader of JSON texts this shows that no two
tables have a text in common.

* `Field.ofJson?_toJson`: what a field leaves out is told from what it
  leaves empty.
* `readEntries?_written`: the values of a map are read back under their
  names and in their order.
* `SignatureTable.distinct_toJson_iff`: when no name is written twice in
  one record.
* `SignatureTable.render_lossless`: a table and its text.
-/
import PacketLayout.Proofs.JsonReading
import PacketLayout.SignatureTable

namespace PacketLayout

/-! ## Values and members -/

namespace Json

def text? : Json → Option String
  | .text value => some value
  | _ => none

def number? : Json → Option Int
  | .number value => some value
  | _ => none

def list? : Json → Option (List Json)
  | .list items => some items
  | _ => none

def record? : Json → Option (List (String × Json))
  | .record members => some members
  | _ => none

end Json

section Readers

variable {α : Type}

/-- A list of values of one kind. -/
def readItems? (read? : Json → Option α) (value : Json) : Option (List α) := do
  (← value.list?).mapM read?

/-- A member that has to be there. -/
def readMember? (name : String) (read? : Json → Option α) (members : List (String × Json)) :
    Option α := do
  read? (← members.lookup name)

/-- A member that may be left out. -/
def readOptional? (name : String) (read? : Json → Option α) (members : List (String × Json)) :
    Option (Option α) :=
  match members.lookup name with
  | none => some none
  | some value => (read? value).map some

/-- The map with these entries, if no name is there twice. -/
def OrderedMap.ofEntries? (entries : List (String × α)) : Option (OrderedMap α) :=
  if distinct : (entries.map Prod.fst).Nodup then some ⟨entries, distinct⟩ else none

/-- Members as a map of values of one kind. -/
def readEntries? (read? : Json → Option α) (members : List (String × Json)) :
    Option (OrderedMap α) := do
  OrderedMap.ofEntries? (← members.mapM fun (name, value) => (read? value).map (name, ·))

end Readers

/-! ## Tables -/

def Field.ofJson? (value : Json) : Option Field := do
  let members ← value.record?
  let name ← readMember? "name" Json.text? members
  let forcedType ← readOptional? "type" (fun value => value.text?.bind ForcedType.ofName?) members
  let function ← readOptional? "func" (readItems? Json.text?) members
  let paramAlias ← readOptional? "param" Json.text? members
  pure { name, forcedType, function, paramAlias }

def SignatureEntry.ofJson? (value : Json) : Option SignatureEntry := do
  let members ← value.record?
  let description ← readOptional? "desc" Json.text? members
  let params ← readMember? "params" (readItems? Field.ofJson?) members
  pure { description, params }

def signaturesOfJson? (value : Json) : Option SignatureSet := do
  readEntries? SignatureEntry.ofJson? (← value.record?)

def PacketEntry.ofJson? (value : Json) : Option PacketEntry := do
  let members ← value.record?
  let description ← readMember? "desc" Json.text? members
  let signatures ← readMember? "signature" signaturesOfJson? members
  pure { description, signatures }

/-- The last two members say when and by whom the table was made. -/
def SignatureTable.ofJson? (value : Json) : Option SignatureTable := do
  let members ← value.record?
  let (packets, making) := members.splitAt (members.length - 2)
  let packets ← readEntries? PacketEntry.ofJson? packets
  let timestamp ← readMember? "_timestamp" Json.number? making
  let builder ← readMember? "_builder" (readItems? Json.text?) making
  pure { packets, timestamp, builder }

/-! ## Reading what is written -/

section Written

variable {α : Type} {read? : Json → Option α} {toJson : α → Json}

/-- A list is read back if its items are. -/
theorem mapM_written {β : Type} {write : α → β} {read? : β → Option α} {items : List α}
    (each : ∀ item ∈ items, read? (write item) = some item) :
    (items.map write).mapM read? = some items := by
  induction items with
  | nil => rfl
  | cons item rest ih =>
    rw [List.map_cons, List.mapM_cons, each item (by simp),
      ih fun other mem => each other (by simp [mem])]
    rfl

theorem readItems?_written {items : List α}
    (each : ∀ item ∈ items, read? (toJson item) = some item) :
    readItems? read? (.list (items.map toJson)) = some items :=
  mapM_written each

theorem OrderedMap.ofEntries?_entries (map : OrderedMap α) :
    OrderedMap.ofEntries? map.entries = some map := by
  rw [ofEntries?, dif_pos map.nodup]

/-- A map is read back with its names and in its order, if its values
are. -/
theorem readEntries?_written {map : OrderedMap α}
    (each : ∀ entry ∈ map.entries, read? (toJson entry.2) = some entry.2) :
    readEntries? read? (map.entries.map fun (name, value) => (name, toJson value)) = some map := by
  unfold readEntries?
  rw [mapM_written fun entry mem => ?_]
  · exact map.ofEntries?_entries
  · dsimp only
    rw [each entry mem]
    rfl

theorem readMember?_written (toJson : α → Json) {name : String} {members : List (String × Json)}
    {value : α} (found : members.lookup name = some (toJson value))
    (reads : ∀ present, read? (toJson present) = some present) :
    readMember? name read? members = some value := by
  rw [readMember?, found]
  exact reads value

/-- What is left out is told from what is there. -/
theorem readOptional?_written (toJson : α → Json) {name : String}
    {members : List (String × Json)} {value : Option α}
    (found : members.lookup name = value.map toJson)
    (reads : ∀ present, read? (toJson present) = some present) :
    readOptional? name read? members = some value := by
  rw [readOptional?, found]
  cases value with
  | none => rfl
  | some present =>
    dsimp only [Option.map_some]
    rw [reads present]
    rfl

/-- An optional member is found under its name only. -/
theorem lookup_optionalMember (name other : String) (value : Option α) :
    (optionalMember name value toJson).lookup other
      = if other = name then value.map toJson else none := by
  cases value with
  | none => simp [optionalMember]
  | some present =>
    by_cases same : other = name
    · simp [optionalMember, same]
    · have differ : (other == name) = false := beq_eq_false_iff_ne.mpr same
      simp [optionalMember, List.lookup_cons, same, differ]

end Written

theorem readItems?_texts (texts : List String) :
    readItems? Json.text? (.list (texts.map .text)) = some texts :=
  readItems?_written fun _ _ => rfl

/-- Every part of a field is read back, and what is left out is told from
what is empty. -/
theorem Field.ofJson?_toJson (field : Field) : Field.ofJson? field.toJson = some field := by
  unfold toJson
  generalize shown : ("name", Json.text field.name)
    :: (optionalMember "type" field.forcedType (fun forced => .text forced.name)
      ++ optionalMember "func" field.function (fun words => .list (words.map .text))
      ++ optionalMember "param" field.paramAlias .text) = members
  have name : readMember? "name" Json.text? members = some field.name :=
    readMember?_written .text (by simp [← shown]) fun _ => rfl
  have forcedType : readOptional? "type" (fun value => value.text?.bind ForcedType.ofName?) members
      = some field.forcedType :=
    readOptional?_written (fun forced => .text forced.name)
      (by simp [← shown, List.lookup_cons, List.lookup_append, lookup_optionalMember])
      fun forced => by simp [Json.text?, ForcedType.ofName?_name]
  have function : readOptional? "func" (readItems? Json.text?) members = some field.function :=
    readOptional?_written (fun words => .list (words.map .text))
      (by simp [← shown, List.lookup_cons, List.lookup_append, lookup_optionalMember])
      readItems?_texts
  have paramAlias : readOptional? "param" Json.text? members = some field.paramAlias :=
    readOptional?_written .text
      (by simp [← shown, List.lookup_cons, List.lookup_append, lookup_optionalMember])
      fun _ => rfl
  simp [ofJson?, Json.record?, name, forcedType, function, paramAlias]

theorem SignatureEntry.ofJson?_toJson (entry : SignatureEntry) :
    SignatureEntry.ofJson? entry.toJson = some entry := by
  unfold toJson
  generalize shown : optionalMember "desc" entry.description .text
    ++ [("params", .list (entry.params.map Field.toJson))] = members
  have description : readOptional? "desc" Json.text? members = some entry.description :=
    readOptional?_written .text
      (by simp [← shown, List.lookup_cons, List.lookup_append, lookup_optionalMember])
      fun _ => rfl
  have params : readMember? "params" (readItems? Field.ofJson?) members = some entry.params :=
    readMember?_written (fun fields => .list (fields.map Field.toJson))
      (by simp [← shown, List.lookup_append, lookup_optionalMember])
      fun _ => readItems?_written fun field _ => field.ofJson?_toJson
  simp [ofJson?, Json.record?, description, params]

theorem signaturesOfJson?_toJson (set : SignatureSet) :
    signaturesOfJson? (signaturesToJson set) = some set :=
  readEntries?_written fun entry _ => entry.2.ofJson?_toJson

theorem PacketEntry.ofJson?_toJson (packet : PacketEntry) :
    PacketEntry.ofJson? packet.toJson = some packet := by
  unfold toJson
  generalize shown : [("desc", Json.text packet.description),
    ("signature", signaturesToJson packet.signatures)] = members
  have description : readMember? "desc" Json.text? members = some packet.description :=
    readMember?_written .text (by simp [← shown]) fun _ => rfl
  have signatures : readMember? "signature" signaturesOfJson? members = some packet.signatures :=
    readMember?_written signaturesToJson (by simp [← shown, List.lookup_cons])
      signaturesOfJson?_toJson
  simp [ofJson?, Json.record?, description, signatures]

namespace SignatureTable

/-- The members for the packets. -/
def packetMembers (table : SignatureTable) : List (String × Json) :=
  table.packets.entries.map fun (header, packet) => (header, packet.toJson)

/-- The members behind them. -/
def makingMembers (table : SignatureTable) : List (String × Json) :=
  [("_timestamp", .number table.timestamp), ("_builder", .list (table.builder.map .text))]

theorem toJson_eq (table : SignatureTable) :
    table.toJson = .record (table.packetMembers ++ table.makingMembers) := rfl

/-- A table is read back from its value. -/
theorem ofJson?_toJson (table : SignatureTable) : ofJson? table.toJson = some table := by
  have split : (table.packetMembers ++ table.makingMembers).splitAt
      ((table.packetMembers ++ table.makingMembers).length - 2)
      = (table.packetMembers, table.makingMembers) := by
    simp [List.splitAt_eq, makingMembers]
  have packets : readEntries? PacketEntry.ofJson? table.packetMembers = some table.packets :=
    readEntries?_written fun entry _ => entry.2.ofJson?_toJson
  have timestamp : readMember? "_timestamp" Json.number? table.makingMembers
      = some table.timestamp :=
    readMember?_written .number (by simp [makingMembers]) fun _ => rfl
  have builder : readMember? "_builder" (readItems? Json.text?) table.makingMembers
      = some table.builder :=
    readMember?_written (fun texts => .list (texts.map .text))
      (by simp [makingMembers, List.lookup_cons]) readItems?_texts
  rw [toJson_eq]
  simp only [ofJson?, Json.record?, Option.bind_eq_bind, Option.bind_some, split, packets,
    timestamp, builder]
  rfl

end SignatureTable

/-! ## Names -/

/-- No record in the value has two members of one name. -/
inductive Json.Distinct : Json → Prop
  | number (value : Int) : Distinct (.number value)
  | text (value : String) : Distinct (.text value)
  | list {items : List Json} (each : ∀ item ∈ items, Distinct item) : Distinct (.list items)
  | record {members : List (String × Json)} (names : (members.map Prod.fst).Nodup)
      (each : ∀ member ∈ members, Distinct member.2) : Distinct (.record members)

theorem Json.distinct_texts (texts : List String) :
    (Json.list (texts.map .text)).Distinct := by
  refine .list fun item mem => ?_
  obtain ⟨text, _, rfl⟩ := List.mem_map.mp mem
  exact .text text

theorem distinct_optionalMember {α : Type} {toJson : α → Json} (name : String) (value : Option α)
    (each : ∀ present, (toJson present).Distinct) :
    ∀ member ∈ optionalMember name value toJson, member.2.Distinct := by
  intro member mem
  cases value with
  | none => cases mem
  | some present =>
    obtain rfl : member = (name, toJson present) := by simpa [optionalMember] using mem
    exact each present

theorem Field.distinct_toJson (field : Field) : field.toJson.Distinct := by
  refine .record ?_ ?_
  · cases field.forcedType <;> cases field.function <;> cases field.paramAlias <;>
      simp [optionalMember]
  · simp only [List.forall_mem_cons, List.forall_mem_append]
    exact ⟨.text _, ⟨distinct_optionalMember _ _ fun _ => .text _,
      distinct_optionalMember _ _ Json.distinct_texts⟩, distinct_optionalMember _ _ .text⟩

theorem SignatureEntry.distinct_toJson (entry : SignatureEntry) : entry.toJson.Distinct := by
  have params : (Json.list (entry.params.map Field.toJson)).Distinct := by
    refine .list fun item mem => ?_
    obtain ⟨field, _, rfl⟩ := List.mem_map.mp mem
    exact field.distinct_toJson
  refine .record ?_ ?_
  · cases entry.description <;> simp [optionalMember]
  · simp only [List.forall_mem_append, List.forall_mem_singleton]
    exact ⟨distinct_optionalMember _ _ .text, params⟩

/-- The members that a map is written as. -/
theorem distinct_entries {α : Type} {toJson : α → Json} (map : OrderedMap α)
    (each : ∀ value, (toJson value).Distinct) :
    ∀ member ∈ map.entries.map fun (name, value) => (name, toJson value), member.2.Distinct := by
  intro member mem
  obtain ⟨entry, _, rfl⟩ := List.mem_map.mp mem
  exact each entry.2

theorem names_entries {α : Type} (toJson : α → Json) (map : OrderedMap α) :
    (map.entries.map fun (name, value) => (name, toJson value)).map Prod.fst = map.keys := by
  rw [List.map_map]
  rfl

theorem PacketEntry.distinct_toJson (packet : PacketEntry) : packet.toJson.Distinct := by
  have signatures : (signaturesToJson packet.signatures).Distinct := by
    refine .record ?_ (distinct_entries _ SignatureEntry.distinct_toJson)
    rw [names_entries]
    exact packet.signatures.nodup
  refine .record (by simp) ?_
  simp only [List.forall_mem_cons]
  exact ⟨.text _, signatures, by simp⟩

namespace SignatureTable

/-- No name is written twice in one record, unless a packet has the name of
one of the last two members for its header. -/
theorem distinct_toJson_iff (table : SignatureTable) :
    table.toJson.Distinct ↔
      "_timestamp" ∉ table.packets.keys ∧ "_builder" ∉ table.packets.keys := by
  have names : (table.packetMembers ++ table.makingMembers).map Prod.fst
      = table.packets.keys ++ ["_timestamp", "_builder"] := by
    rw [List.map_append, packetMembers, names_entries]
    rfl
  have keys : table.packets.keys.Nodup := table.packets.nodup
  have free : (table.packets.keys ++ ["_timestamp", "_builder"]).Nodup ↔
      "_timestamp" ∉ table.packets.keys ∧ "_builder" ∉ table.packets.keys := by
    rw [List.nodup_append]
    constructor
    · rintro ⟨_, _, differ⟩
      exact ⟨fun mem => differ _ mem _ (by simp) rfl, fun mem => differ _ mem _ (by simp) rfl⟩
    · rintro ⟨timestamp, builder⟩
      refine ⟨keys, by simp, fun header mem name special => ?_⟩
      rintro rfl
      have either : header = "_timestamp" ∨ header = "_builder" := by simpa using special
      rcases either with rfl | rfl
      · exact timestamp mem
      · exact builder mem
  rw [← free, ← names, toJson_eq]
  constructor
  · intro distinct
    cases distinct with
    | record names _ => exact names
  · intro names
    refine .record names ?_
    simp only [List.forall_mem_append, makingMembers, List.forall_mem_cons]
    exact ⟨distinct_entries _ PacketEntry.distinct_toJson, .number _, Json.distinct_texts _,
      by simp⟩

/-! ## Texts of tables -/

/-- A table can be read back from its text in either layout: the text has
the same value in both, with its members in their order, and the value has
every packet, signature and field of the table. So only one table has the
text.

That is for a reader that hands on all members of a record. One that keeps
only one member of each name hands on the same value if no name is written
twice, which is to say, for all tables but those in which a packet has the
name of one of the last two members for its header. -/
theorem render_lossless (table : SignatureTable) :
    (∀ layout, Json.read? (table.render layout) = some table.toJson) ∧
    ofJson? table.toJson = some table ∧
    (table.toJson.Distinct ↔
      "_timestamp" ∉ table.packets.keys ∧ "_builder" ∉ table.packets.keys) ∧
    ∀ other layout, table.render layout = other.render layout ↔ table = other := by
  have reads (table : SignatureTable) (layout : Json.Layout) :
      (Json.read? (table.render layout)).bind ofJson? = some table := by
    rw [render, Json.read?_render, Option.bind_some, ofJson?_toJson]
  refine ⟨?_, ofJson?_toJson table, distinct_toJson_iff table, ?_⟩
  · intro layout
    exact Json.read?_render layout table.toJson
  · intro other layout
    constructor
    · intro same
      have one := reads table layout
      rw [same, reads other layout] at one
      exact (Option.some.inj one).symm
    · intro same
      rw [same]

end SignatureTable

end PacketLayout
