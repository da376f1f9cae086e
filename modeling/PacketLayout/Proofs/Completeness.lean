/-
PacketLayout.Proofs.Completeness — the table holds all that was declared.

A table is put together from what has been compiled, and a packet that has
not been is passed over without a word. So it has to be shown that none is
left when a build succeeds: all fragments have been compiled, and every
packet header of the source has its entry, in the order of the source,
with the signatures that the lines behind it come to.

* `compileAll_fragments`: compiling everything leaves no fragment out.
* `SignatureTable.entries_assemble_filterMap`: the entries of the table, one
  for each packet that has been compiled.
* `Workspace.build_complete`: the table of a build.
-/
import PacketLayout.Proofs.Blame
import PacketLayout.Proofs.Packet.Compiled

namespace PacketLayout

open Layout Outline Text

/-! ## Fragments -/

section Fragments

variable {declared : Declarations} {results : Results}

/-- A fragment that can be compiled is kept. -/
theorem compileDeclared_keeps (declared : Declarations) (fragment : Fragment)
    (results : Results) :
    (compileDeclared declared fragment).Ends results fun result after _ =>
      result = .ok () → ∃ expansion, after.expansions.get? fragment.name = some expansion := by
  unfold compileDeclared compileFragment onExpansions
  rw [Job.ends_bind, Job.ends_zoom]
  refine (resolve_ends [] fragment.name _ results.expansions .refl (by simp)).imp
    fun result after _ resolved => ?_
  cases result with
  | error failure => exact fun failed => nomatch failed
  | ok expansion =>
    intro _
    have found := resolved.found
    cases given : expandGiven results.expansions declared.fragments [] fragment.name
        ⟨fragment.line, fragment.name⟩ with
    | error failure =>
      rw [given] at found
      cases found
    | ok whole => exact ⟨whole, (remembered_eq_ok_iff.mp (resolved.kept whole given)).2⟩

/-- If everything can be compiled, all fragments are kept. -/
theorem compileAll_fragments (declared : Declarations) (results : Results) :
    (compileAll declared).Ends results fun result after _ =>
      result = .ok () → ∀ fragment ∈ declared.fragments.values,
        ∃ expansion, after.expansions.get? fragment.name = some expansion := by
  have fragments := forM_ends (compileDeclared declared)
    (fun results fragment => (declaredOutcome declared results fragment).map fun _ => ())
    (fun fragment after => ∃ expansion, after.expansions.get? fragment.name = some expansion)
    (fun fragment results => by
      obtain ⟨outcome, advance⟩ := compileDeclared_ends declared fragment results
      exact ⟨outcome, advance, compileDeclared_keeps declared fragment results⟩)
    (fun before after advance => by
      funext fragment
      unfold declaredOutcome
      rw [advance.expandGiven_eq])
    (fun fragment before after advance kept => kept.imp fun _ here => advance.grown.get?_mono here)
    declared.fragments.values results
  unfold compileAll compileInOrder
  rw [Job.ends_recordingFailure, Job.ends_bind]
  refine fragments.imp fun result middle _ known => ?_
  cases result with
  | error failure => exact fun failed => nomatch failed
  | ok _ =>
    refine (compilePackets_ends declared declared.packets.keys middle).imp
      fun result after _ packets => ?_
    cases result with
    | error failure => exact fun failed => nomatch failed
    | ok _ =>
      intro _ fragment mem
      obtain ⟨expansion, kept⟩ := known.2.2 rfl fragment mem
      exact ⟨expansion, packets.2.1.grown.get?_mono kept⟩

end Fragments

/-! ## The entries of the table -/

namespace SignatureTable

variable {declared : Declarations} {results : Results} {timestamp : Nat}

/-- The entry of a packet, if it has been compiled. -/
def entryOf? (results : Results) (entry : String × Packet) : Option (String × PacketEntry) :=
  (results.packets.get? entry.1).map fun set => (entry.1, ⟨entry.2.description, set⟩)

theorem entryOf?_name {entry : String × Packet} {tabled : String × PacketEntry}
    (h : entryOf? results entry = some tabled) : tabled.1 = entry.1 := by
  obtain ⟨set, _, rfl⟩ := Option.map_eq_some_iff.mp h
  rfl

/-- The names of the compiled packets stand in the order of the packets. -/
theorem names_sublist (results : Results) (entries : List (String × Packet)) :
    ((entries.filterMap (entryOf? results)).map Prod.fst).Sublist (entries.map Prod.fst) := by
  induction entries with
  | nil => exact .refl _
  | cons entry rest ih =>
    cases compiled : entryOf? results entry with
    | none =>
      rw [List.filterMap_cons_none compiled]
      exact .cons _ ih
    | some tabled =>
      rw [List.filterMap_cons_some compiled, List.map_cons, List.map_cons,
        entryOf?_name compiled]
      exact .cons_cons _ ih

/-- The table has the entries of the packets that have been compiled, in
the order of their declarations. -/
theorem entries_assemble_filterMap
    (named : ∀ entry ∈ declared.packets.entries, entry.1 = entry.2.header) :
    (assemble declared results timestamp).packets.entries
      = declared.packets.entries.filterMap (entryOf? results) := by
  have steps : (assemble declared results timestamp).packets
      = .ofEntries (declared.packets.entries.filterMap (entryOf? results)) := by
    unfold assemble OrderedMap.ofEntries OrderedMap.insertAll
    rw [List.foldl_filterMap]
    refine List.foldl_ext _ _ _ fun made entry mem => ?_
    cases kept : results.packets.get? entry.1 with
    | none => simp only [entryOf?, kept, Option.map_none]
    | some set => simp only [entryOf?, kept, Option.map_some, ← named entry mem]
  rw [steps, OrderedMap.entries_ofEntries]
  exact (names_sublist results _).nodup declared.packets.nodup

/-- The entry of a packet that has been compiled. -/
def entryOf (results : Results) (entry : String × Packet) : String × PacketEntry :=
  (entry.1, ⟨entry.2.description, (results.packets.get? entry.1).getD ∅⟩)

/-- If all packets have been compiled, the table has an entry for each, in
the order of their declarations. -/
theorem entries_assemble
    (named : ∀ entry ∈ declared.packets.entries, entry.1 = entry.2.header)
    (compiled : ∀ header ∈ declared.packets.keys,
      ∃ set, results.packets.get? header = some set) :
    (assemble declared results timestamp).packets.entries
      = declared.packets.entries.map (entryOf results) := by
  rw [entries_assemble_filterMap named, ← List.filterMap_eq_map]
  refine List.filterMap_congr fun entry mem => ?_
  obtain ⟨set, kept⟩ := compiled entry.1 (List.mem_map_of_mem mem)
  simp [entryOf?, entryOf, kept]

/-- The names of the members of a table are those of its packets, its time
and its builder. No header is the name of another member, unless it has an
underscore. -/
theorem toJson_members (table : SignatureTable)
    (plain : ∀ header ∈ table.packets.keys, '_' ∉ header.toList) :
    ∃ time builder, table.toJson
        = .record (table.packets.entries.map (fun entry => (entry.1, entry.2.toJson))
          ++ [("_timestamp", time), ("_builder", builder)]) ∧
      (table.packets.keys ++ ["_timestamp", "_builder"]).Nodup := by
  refine ⟨_, _, rfl, ?_⟩
  refine List.nodup_append.mpr ⟨table.packets.nodup, by decide, ?_⟩
  intro header mem name other same
  have free := plain header mem
  rw [same] at free
  rcases List.mem_cons.mp other with rfl | other
  · exact free (by decide)
  · rw [List.mem_singleton.mp other] at free
    exact free (by decide)

end SignatureTable

/-! ## Headers -/

/-- Capitals add no underscore. -/
theorem underscore_not_mem_upper {text : String} (free : '_' ∉ text.toList) :
    '_' ∉ (upper text).toList := by
  intro mem
  simp only [upper, String.toList_ofList, List.mem_map] at mem
  obtain ⟨c, inside, same⟩ := mem
  exact free (eq_of_toUpper_eq same (by decide) ▸ inside)

/-- The header of a packet is written in hexadecimal. -/
theorem underscore_not_mem_header {text : List Char} {packet : PacketHeader}
    (read : readPacketHeader? text = some packet) : '_' ∉ packet.header.toList := by
  unfold readPacketHeader? at read
  split at read
  · split at read
    · cases read
    · obtain ⟨header, bytes, rfl⟩ := Option.map_eq_some_iff.mp read
      unfold readPacketBytes? at bytes
      dsimp only at bytes
      split at bytes
      · rename_i hex
        cases bytes
        refine underscore_not_mem_upper fun mem => ?_
        rw [Bool.and_eq_true] at hex
        have digit := (isHexBytes_iff.mp hex.1).2.2 '_' (by simpa using mem)
        exact absurd digit (by decide)
      · cases bytes
  · cases read

/-- So a packet that has been loaded stands under a name without an
underscore. -/
theorem Layout.Partition.underscore_not_mem {code : List Site} {declared : Declarations}
    (partition : Layout.Partition code declared) {entry : String × Packet}
    (inside : entry ∈ declared.packets.entries) : '_' ∉ entry.1.toList := by
  obtain ⟨same, block, _, made⟩ := partition.packet inside
  obtain ⟨opened, found, later⟩ := Option.map_eq_some_iff.mp made
  rw [same, ← later]
  unfold Site.packet? at found
  split at found
  · obtain ⟨written, read, rfl⟩ := Option.map_eq_some_iff.mp found
    exact underscore_not_mem_upper (underscore_not_mem_header read)
  · cases found

/-! ## Blocks and entries -/

/-- The entry that the block of a packet has in the table: under its header
in capitals stand its description and the signatures of its lines. -/
structure Block.Tabled (fragments : OrderedMap Fragment) (block : Block)
    (entry : String × PacketEntry) : Prop where
  header : ∃ packet, readPacketHeader? block.header.raw.toList = some packet ∧
    entry.1 = upper packet.header ∧ entry.2.description = packet.description
  lines : (Body.ofLines block.lines).lines = block.lines
  signatures : (assemble fragments (Body.ofLines block.lines) ∅).result = .ok entry.2.signatures
  /-- Without a placeholder there is one signature. -/
  single : hasPlaceholder (block.lines.map Site.form) = false → entry.2.signatures.size = 1

theorem packet?_isSome_iff {site : Site} :
    site.packet?.isSome = true ↔
      site.startsPacket = true ∧ ∃ packet, readPacketHeader? site.raw.toList = some packet := by
  unfold Site.packet?
  split
  · rename_i starts
    simp [starts, Option.isSome_iff_exists]
  · rename_i other
    simp [other]

/-- What a function makes of the items that it makes something of. -/
theorem forall₂_filterMap {α β : Type} {made : α → Option β} {chosen : α → Bool} {items : List α}
    (same : ∀ item ∈ items, chosen item = (made item).isSome) :
    List.Forall₂ (fun item result => item ∈ items ∧ made item = some result)
      (items.filter chosen) (items.filterMap made) := by
  induction items with
  | nil => exact .nil
  | cons item rest ih =>
    have later := (ih fun other mem => same other (by simp [mem])).imp
      fun other result known => (⟨List.mem_cons_of_mem item known.1, known.2⟩ :
        other ∈ item :: rest ∧ made other = some result)
    have here := same item (by simp)
    cases found : made item with
    | none =>
      rw [found] at here
      rw [List.filter_cons_of_neg (by simp [here]), List.filterMap_cons_none found]
      exact later
    | some result =>
      rw [found] at here
      rw [List.filter_cons_of_pos here, List.filterMap_cons_some found]
      exact .cons ⟨by simp, found⟩ later

/-- The packets that have been declared, next to their blocks. -/
theorem Layout.Partition.packetBlocks {code : List Site} {declared : Declarations}
    (partition : Partition code declared) :
    List.Forall₂ (fun block entry => block ∈ blocks code ∧ block.packet? = some entry.2 ∧
        entry.1 = entry.2.header ∧ declared.packets.get? entry.1 = some entry.2)
      ((blocks code).filter fun block => block.header.startsPacket) declared.packets.entries := by
  rw [partition.packets, packetEntries, List.forall₂_map_right_iff]
  refine (forall₂_filterMap fun block mem => ?_).imp fun block packet known => ?_
  · -- a block that declares no packet declares a fragment, and its header shows it
    have single := partition.single block mem
    rw [Block.fragment?, Block.packet?, Option.isSome_map, Option.isSome_map] at single
    rw [Block.packet?, Option.isSome_map]
    cases packet : block.header.packet?.isSome with
    | true => exact (packet?_isSome_iff.mp packet).1
    | false =>
      rw [packet] at single
      have starts : block.header.startsFragment = true := by
        cases other : block.header.startsFragment with
        | true => rfl
        | false => simp [Site.fragment?, other] at single
      rcases block.header.kinds with h | h | h | h <;> simp_all
  · refine ⟨known.1, known.2, rfl, OrderedMap.get?_of_mem_entries ?_⟩
    rw [partition.packets, packetEntries]
    exact List.mem_map_of_mem (List.mem_filterMap.mpr ⟨block, known⟩)

theorem headers_packetBlocks (code : List Site) :
    ((blocks code).filter fun block => block.header.startsPacket).map Block.header
      = code.filter Site.startsPacket := by
  have headers := congrArg (List.filter Site.startsPacket) (headers_blocks code)
  rw [List.filter_map, List.filter_filter] at headers
  refine headers.trans (List.filter_congr fun site _ => ?_)
  cases starts : site.startsPacket <;> simp [Site.isHeader, starts]

/-! ## Compiled packets -/

namespace CompiledPacket

variable {workspace : Workspace} {operation : Operation} {header : String}

/-- Without a placeholder there is one signature. -/
theorem size_of_unplaced (compiled : CompiledPacket workspace operation header)
    (unplaced : hasPlaceholder compiled.packet.forms = false) : compiled.set.size = 1 := by
  have count : compiled.set.size = compiled.units.length := by
    have keys := congrArg List.length compiled.keys
    rwa [compiled.expanded, List.length_map, List.length_map, OrderedMap.keys,
      List.length_map] at keys
  rw [Packet.forms, hasPlaceholder_forms] at unplaced
  have open_ : ¬ (compiled.lines.any fun site => site.form.isPlaceholder) = true := by
    rw [Bool.not_eq_true]
    exact unplaced
  rw [count, units, entryTraces, if_neg open_]
  rfl

end CompiledPacket

namespace Workspace

variable {source : String} {timestamp : Nat} {table : SignatureTable}

/-- What a build goes through when it succeeds. -/
theorem build_steps (built : (build {} source timestamp).1 = .ok table) :
    ∃ loaded : Workspace, loaded = ({} : Workspace).perform (.load source) ∧
      loaded.results = {} ∧ Layout.Partition (codeLines source) loaded.declared ∧
      loaded.compileAll.1 = .ok () ∧
      (build {} source timestamp).2 = loaded.perform .compileAll ∧
      table = (loaded.perform .compileAll).table timestamp := by
  unfold build at built ⊢
  rcases load_cases source with ⟨after, loaded, _, partition, fresh⟩ |
    ⟨failure, after, _, _, loaded, _⟩
  · refine ⟨after, congrArg Prod.snd loaded.symm, fresh, partition, ?_⟩
    have performed : after.perform .compileAll = after.compileAll.2 := rfl
    rw [performed]
    simp only [loaded] at built ⊢
    cases all : after.compileAll with
    | mk result compiled =>
      rw [all] at built
      cases result with
      | error failure => cases built
      | ok _ =>
        cases built
        exact ⟨rfl, rfl, rfl⟩
  · rw [loaded] at built
    cases built

/-- The entry of a packet that has been compiled with everything else. -/
theorem tabled_of_compiled {loaded : Workspace}
    (reached : Reached Operation.Any loaded) (fresh : loaded.results = {})
    (settled : Settled (loaded.perform .compileAll).results loaded.declared)
    (partition : Layout.Partition (codeLines source) loaded.declared) {block : Block}
    (mem : block ∈ blocks (codeLines source)) {packet : Packet}
    (made : block.packet? = some packet)
    (declared : loaded.declared.packets.get? packet.header = some packet) {set : SignatureSet}
    (kept : (loaded.perform .compileAll).results.packets.get? packet.header = some set) :
    block.Tabled loaded.declared.fragments (packet.header, ⟨packet.description, set⟩) := by
  obtain ⟨opened, found, rfl⟩ := Option.map_eq_some_iff.mp made
  have lines := partition.bodies block mem
  refine ⟨?_, lines, ?_, fun unplaced => ?_⟩
  · unfold Site.packet? at found
    split at found
    · obtain ⟨written, read, rfl⟩ := Option.map_eq_some_iff.mp found
      exact ⟨written, read, rfl, rfl⟩
    · cases found
  · obtain ⟨other, there, assembled⟩ := settled.packets _ set kept
    cases declared.symm.trans there
    rw [(assemble_ends loaded.declared.fragments (Body.ofLines block.lines) ∅).1,
      expandGiven_empty partition.idle, ← settled.coherent.expandGiven_eq]
    exact Assembly.assembled_imp
      (fun name site _ h => Grown.refl.expandGiven_eq_ok (by simp) h) assembled
  · have none : loaded.results.packets.get? opened.header = none := by rw [fresh]; rfl
    obtain ⟨compiled, rfl⟩ := exists_compiledPacket reached none kept
    refine compiled.size_of_unplaced ?_
    rw [Packet.forms, ← Option.some.inj (declared.symm.trans compiled.declared)]
    exact lines.symm ▸ unplaced

/-- When everything compiles, a packet that has been loaded has its
signatures. -/
theorem exists_kept {loaded : Workspace} {code : List Site}
    (partition : Layout.Partition code loaded.declared)
    (succeeded : loaded.compileAll.1 = .ok ()) {header : String}
    (mem : header ∈ loaded.declared.packets.keys) :
    ∃ set, (loaded.perform .compileAll).results.packets.get? header = some set := by
  have packets := (compileAll_ends loaded.declared loaded.results).2.2 succeeded
  obtain ⟨set, there⟩ := packets header mem
  rw [partition.upper_header mem] at there
  exact ⟨set, there⟩

/-- When a build succeeds, every fragment has been compiled, and the table
has one entry for each packet header of the source, in the order of the
source. The members of the table are these entries, its time and its
builder, and no name stands for two of them. -/
theorem build_complete (built : (build {} source timestamp).1 = .ok table) :
    (∀ fragment ∈ (build {} source timestamp).2.declared.fragments.values, ∃ expansion,
      (build {} source timestamp).2.results.fragmentState fragment = .compiled expansion) ∧
    ((blocks (codeLines source)).filter fun block => block.header.startsPacket).map Block.header
      = (codeLines source).filter Site.startsPacket ∧
    List.Forall₂ (Block.Tabled (build {} source timestamp).2.declared.fragments)
      ((blocks (codeLines source)).filter fun block => block.header.startsPacket)
      table.packets.entries ∧
    (∃ time builder, table.toJson
        = .record (table.packets.entries.map (fun entry => (entry.1, entry.2.toJson))
          ++ [("_timestamp", time), ("_builder", builder)])) ∧
    (table.packets.keys ++ ["_timestamp", "_builder"]).Nodup ∧
    ∀ entry ∈ table.packets.entries, ∃ members,
      entry.2.toJson = .record [("desc", .text entry.2.description),
        ("signature", .record members)] ∧
      members.map Prod.fst = entry.2.signatures.keys ∧ (members.map Prod.fst).Nodup := by
  obtain ⟨loaded, same, fresh, partition, succeeded, finally_, rfl⟩ := build_steps built
  have reached : Reached Operation.Sealed loaded := same ▸ Reached.start.perform trivial
  have any : Reached Operation.Any loaded := same ▸ Reached.start.perform trivial
  have after : Reached Operation.Sealed (loaded.perform .compileAll) := reached.perform trivial
  have settled := settled_of_reached after
  have all := compileAll_fragments loaded.declared loaded.results succeeded
  have named : ∀ entry ∈ loaded.declared.packets.entries, entry.1 = entry.2.header :=
    fun entry mem => (partition.packet mem).1
  have kept : ∀ header ∈ loaded.declared.packets.keys,
      ∃ set, (loaded.perform .compileAll).results.packets.get? header = some set :=
    fun header mem => exists_kept partition succeeded mem
  have entries : ((loaded.perform .compileAll).table timestamp).packets.entries
      = loaded.declared.packets.entries.map
          (SignatureTable.entryOf (loaded.perform .compileAll).results) :=
    SignatureTable.entries_assemble named kept
  have plain : ∀ header ∈ ((loaded.perform .compileAll).table timestamp).packets.keys,
      '_' ∉ header.toList := by
    intro header mem
    rw [OrderedMap.keys, entries, List.map_map] at mem
    obtain ⟨entry, inside, rfl⟩ := List.mem_map.mp mem
    exact partition.underscore_not_mem inside
  obtain ⟨time, builder, json, distinct⟩ := SignatureTable.toJson_members _ plain
  rw [finally_]
  refine ⟨fun fragment mem => ?_, headers_packetBlocks _, ?_, ⟨time, builder, json⟩, distinct,
    fun entry _ => ⟨_, rfl, ?_, ?_⟩⟩
  · obtain ⟨expansion, there⟩ := all fragment mem
    refine ⟨expansion, ?_⟩
    have found : (loaded.perform .compileAll).results.expansions.get? fragment.name
        = some expansion := there
    rw [Results.fragmentState, found]
  · rw [entries, List.forall₂_map_right_iff]
    refine partition.packetBlocks.imp fun block entry known => ?_
    obtain ⟨inside, made, name, declared⟩ := known
    obtain ⟨set, there⟩ := kept entry.1 (OrderedMap.mem_keys_of_get? declared)
    rw [SignatureTable.entryOf, there, Option.getD_some]
    rw [name] at declared there ⊢
    exact tabled_of_compiled any fresh settled partition inside made declared there
  · simp [OrderedMap.keys, Function.comp_def]
  · simpa [Function.comp_def] using entry.2.signatures.nodup

/-- Two packets, one of them with a place for branches, and a fragment. -/
def twoPacketSource : String :=
  "<parser>\nFragment[Path]\nx:$2\nPacket[Move]:6f\n+ Fragment[Path]\nPacket[Turn]:0A\n+ SubCate\n"
    ++ "SubCate[left]:01\nSubCate[right]:02\n</parser>"

/-- The table has the two packets under their headers in capitals. -/
theorem build_complete_twoPackets :
    ∃ table, (build {} twoPacketSource 0).1 = .ok table ∧
      table.packets.keys = ["6F", "0A"] ∧
      table.packets.values.map (fun entry => entry.signatures.keys) = [["$2"], ["01", "02"]] ∧
      ((codeLines twoPacketSource).filter Site.startsPacket).map Site.raw
        = ["Packet[Move]:6f", "Packet[Turn]:0A"] ∧
      List.Forall₂ (Block.Tabled (build {} twoPacketSource 0).2.declared.fragments)
        ((blocks (codeLines twoPacketSource)).filter fun block => block.header.startsPacket)
        table.packets.entries ∧
      (table.packets.keys ++ ["_timestamp", "_builder"]).Nodup := by
  have run : (build {} twoPacketSource 0).1.toOption.map
        (fun table => (table.packets.keys,
          table.packets.values.map fun entry => entry.signatures.keys))
      = some (["6F", "0A"], [["$2"], ["01", "02"]]) := by decide +kernel
  obtain ⟨table, some, shown⟩ := Option.map_eq_some_iff.mp run
  obtain ⟨headers, keys⟩ := Prod.mk.injEq .. ▸ shown
  have built : (build {} twoPacketSource 0).1 = .ok table := by
    cases result : (build {} twoPacketSource 0).1 with
    | error failure =>
      rw [result] at some
      cases some
    | ok other =>
      rw [result] at some
      cases some
      rfl
  obtain ⟨_, _, entries, _, distinct, _⟩ := build_complete built
  exact ⟨table, built, headers, keys, by decide +kernel, entries, distinct⟩

end Workspace

end PacketLayout
