/-
PacketLayout.Proofs.Loading.Partition — loading takes a source apart into
its declarations.

Loading reads the lines of a source one after another, and keeps in mind
whether it stands in a section and which declaration it stands in. What
it makes are the blocks of the source, each under its name, and it stops
at the first line that has a fault behind those before it.

* `Loaded.loadLine`: one line, from what the lines before it have made.
* `load_ends`: a whole source.
* `Workspace.load_partition`: a source is loaded exactly if it is
  loadable, and then its declarations are its blocks.
-/
import PacketLayout.Proofs.Loading.Blocks
import PacketLayout.Proofs.Declaring
import PacketLayout.Proofs.OrderedMapEntries
import PacketLayout.Workspace

namespace PacketLayout

open Text

/-! ## Bodies -/

namespace Body

theorem place?_of_above {site : Site} {lines : List Site}
    (above : ∀ other ∈ lines, other.line < site.line) :
    place? site lines = some (lines ++ [site]) := by
  induction lines with
  | nil => rfl
  | cons first rest ih =>
    have below := above first (by simp)
    rw [place?, if_neg (by omega), if_neg (by omega),
      ih fun other mem => above other (by simp [mem])]
    rfl

/-- A line of a higher number comes last. -/
theorem add?_ofLines {site : Site} {lines : List Site}
    (ascending : (lines ++ [site]).Pairwise fun first second => first.line < second.line) :
    (Body.ofLines lines).add? site = some (Body.ofLines (lines ++ [site])) := by
  obtain ⟨old, _, above⟩ := List.pairwise_append.mp ascending
  have placed := lines_add? (Body.ofLines lines) site
  rw [lines_ofLines old, place?_of_above fun other mem => above other mem site (by simp)] at placed
  obtain ⟨longer, added, lines⟩ := Option.map_eq_some_iff.mp placed
  rw [added, ofLines, dif_pos ascending]
  cases longer
  cases lines
  rfl

end Body

/-! ## What has been loaded -/

namespace Layout

/-- The fragments that the blocks declare, each under its name. -/
def fragmentEntries (blocks : List Block) : List (String × Fragment) :=
  (blocks.filterMap Block.fragment?).map fun fragment => (fragment.name, fragment)

/-- The packets that the blocks declare, each under its header. -/
def packetEntries (blocks : List Block) : List (String × Packet) :=
  (blocks.filterMap Block.packet?).map fun packet => (packet.header, packet)

/-- What the lines so far have made. -/
structure Loaded (done : List Site) (position : Position) (declared : Declarations) : Prop where
  loadable : Loadable done
  inSection : position.inSection = inSection done
  owner : position.owner = (openHeader? done).bind Site.owner?
  fragments : declared.fragments.entries = fragmentEntries (blocks done)
  packets : declared.packets.entries = packetEntries (blocks done)

/-- What one more line comes to: without a fault it has been loaded too,
and with a fault it is blamed and nothing changes. -/
def Loads (done : List Site) (site : Site) (declared : Declarations)
    (result : Except Failure Position) (after : Declarations) : Prop :=
  match fault? done site with
  | none => ∃ next, result = .ok next ∧ Loaded (done ++ [site]) next after
  | some cause => result = .error (cause.atSite site) ∧ after = declared

namespace Loaded

variable {done : List Site} {site : Site} {position : Position} {declared : Declarations}

theorem start : Loaded [] {} {} where
  loadable := loadable_nil
  inSection := rfl
  owner := rfl
  fragments := rfl
  packets := rfl

theorem fragment_keys (loaded : Loaded done position declared) :
    declared.fragments.keys = fragmentNames done := by
  rw [OrderedMap.keys, loaded.fragments, fragmentEntries, ← names_blocks, List.map_map]
  rfl

theorem packet_keys (loaded : Loaded done position declared) :
    declared.packets.keys = packetHeaders done := by
  rw [OrderedMap.keys, loaded.packets, packetEntries, ← packetHeaders_blocks, List.map_map]
  rfl

/-- A tag declares nothing. -/
theorem tag (loaded : Loaded done position declared) (tag : site.isTag = true) :
    (position.loadLine site).Ends declared fun result after _ =>
      Loads done site declared result after := by
  have sound : fault? done site = none := by simp [fault?, tag]
  have loadable := loadable_concat.mpr ⟨loaded.loadable, sound⟩
  have header := isHeader_of_isTag tag
  have inside := inSection_concat done site
  have opened := openHeader?_concat done site
  rw [tag, if_pos rfl] at inside
  rw [header, if_neg (by simp)] at opened
  unfold Position.loadLine Loads
  rw [sound]
  by_cases opens : site.raw = "<parser>"
  · have closes : site.closesSection = false := by simp [Site.closesSection, opens]
    rw [if_pos opens, Job.ends_pure]
    refine ⟨_, rfl, loadable, ?_, ?_, ?_, ?_⟩
    · simp [inside, Site.opensSection, opens]
    · simpa [opened, closes] using loaded.owner
    · rw [blocks_concat_tag tag, loaded.fragments]
    · rw [blocks_concat_tag tag, loaded.packets]
  · have closes : site.raw = "</parser>" := by
      simpa [Site.isTag, Site.opensSection, Site.closesSection, opens] using tag
    rw [if_neg opens, if_pos closes, Job.ends_pure]
    refine ⟨_, rfl, loadable, ?_, ?_, ?_, ?_⟩
    · simp [inside, Site.opensSection, opens]
    · simp [opened, Site.closesSection, closes]
    · rw [blocks_concat_tag tag, loaded.fragments]
    · rw [blocks_concat_tag tag, loaded.packets]

/-- Any other line is loaded inside a section only. -/
theorem code (loaded : Loaded done position declared) (tag : site.isTag = false)
    (inner : position.inSection = true →
      (position.loadCode site).Ends declared fun result after _ =>
        Loads done site declared result after) :
    (position.loadLine site).Ends declared fun result after _ =>
      Loads done site declared result after := by
  have tags : ¬ site.raw = "<parser>" ∧ ¬ site.raw = "</parser>" := by
    simpa [Site.isTag, Site.opensSection, Site.closesSection] using tag
  unfold Position.loadLine
  rw [if_neg tags.1, if_neg tags.2]
  cases inside : position.inSection with
  | true => exact inner inside
  | false =>
    have outside : fault? done site = some .outsideSection := by
      simp [fault?, tag, ← loaded.inSection, inside]
    rw [if_neg (by simp), Job.ends_fail, Loads, outside]
    exact ⟨rfl, rfl⟩

/-- A header without a fault opens a block that has no lines yet. -/
theorem opened (loaded : Loaded done position declared) (tag : site.isTag = false)
    (header : site.isHeader = true) (sound : fault? done site = none) {owner : Owner}
    (owned : site.owner? = some owner) {after : Declarations}
    (fragments : after.fragments.entries
      = declared.fragments.entries ++ fragmentEntries [⟨site, []⟩])
    (packets : after.packets.entries = declared.packets.entries ++ packetEntries [⟨site, []⟩]) :
    Loaded (done ++ [site]) { position with owner := some owner } after where
  loadable := loadable_concat.mpr ⟨loaded.loadable, sound⟩
  inSection := by simp [inSection_concat, tag, loaded.inSection]
  owner := by simp [openHeader?_concat, header, owned]
  fragments := by
    rw [fragments, loaded.fragments, blocks_concat_header header]
    simp [fragmentEntries]
  packets := by
    rw [packets, loaded.packets, blocks_concat_header header]
    simp [packetEntries]

/-- The header of a fragment. -/
theorem fragmentHeader (loaded : Loaded done position declared) (tag : site.isTag = false)
    (starts : site.startsFragment = true) (inside : position.inSection = true) :
    (position.loadCode site).Ends declared fun result after _ =>
      Loads done site declared result after := by
  have header : site.isHeader = true := by simp [Site.isHeader, starts]
  have inSection : Layout.inSection done = true := loaded.inSection ▸ inside
  have code : startsWith "Fragment[" site.raw.toList = true := starts
  unfold Position.loadCode Loads
  simp only [code, if_true]
  cases read : readFragmentHeader? site.raw.toList with
  | none =>
    have malformed : site.fragment? = none := by simp [Site.fragment?, starts, read]
    have fault : fault? done site = some .malformedFragmentHeader := by
      simp [fault?, tag, inSection, starts, malformed]
    rw [fault, Job.ends_fail]
    exact ⟨rfl, rfl⟩
  | some name =>
    have found : site.fragment? = some { name, line := site.line } := by
      simp [Site.fragment?, starts, read]
    have other : site.packet? = none := by
      rcases site.kinds with h | h | h | h <;> simp_all [Site.packet?]
    unfold declareFragment
    simp only [Job.ends_bind, ends_changeDeclarations, Declarations.addFragment,
      OrderedMap.contains_iff, loaded.fragment_keys]
    by_cases taken : name ∈ fragmentNames done
    · have fault : fault? done site = some (.duplicateFragment name) := by
        simp [fault?, tag, inSection, starts, found, taken]
      simp only [fault, if_pos taken]
      exact ⟨trivial, trivial⟩
    · have fault : fault? done site = none := by
        simp [fault?, tag, inSection, starts, found, taken]
      simp only [fault, if_neg taken, Job.ends_report, Job.ends_pure]
      rw [← loaded.fragment_keys] at taken
      refine ⟨_, rfl, loaded.opened tag header fault (by simp [Site.owner?, found]) ?_ ?_⟩
      · rw [OrderedMap.entries_insert_of_not_mem _ taken]
        simp [fragmentEntries, Block.fragment?, found, Body.ofLines_nil]
      · simp [packetEntries, Block.packet?, other]

/-- The header of a packet. -/
theorem packetHeader (loaded : Loaded done position declared) (tag : site.isTag = false)
    (fragment : site.startsFragment = false) (starts : site.startsPacket = true)
    (inside : position.inSection = true) :
    (position.loadCode site).Ends declared fun result after _ =>
      Loads done site declared result after := by
  have header : site.isHeader = true := by simp [Site.isHeader, starts]
  have inSection : Layout.inSection done = true := loaded.inSection ▸ inside
  have other : startsWith "Fragment[" site.raw.toList = false := fragment
  have code : startsWith "Packet[" site.raw.toList = true := starts
  unfold Position.loadCode Loads
  simp only [other, code, Bool.false_eq_true, if_false, if_true]
  cases read : readPacketHeader? site.raw.toList with
  | none =>
    have malformed : site.packet? = none := by simp [Site.packet?, starts, read]
    have fault : fault? done site = some .malformedPacketHeader := by
      simp [fault?, tag, inSection, fragment, starts, malformed]
    rw [fault, Job.ends_fail]
    exact ⟨rfl, rfl⟩
  | some packet =>
    have found : site.packet? = some
        { description := packet.description, header := upper packet.header,
          line := site.line } := by
      simp [Site.packet?, starts, read]
    have unnamed : site.fragment? = none := by simp [Site.fragment?, fragment]
    unfold declarePacket
    simp only [Job.ends_bind, ends_changeDeclarations, Declarations.addPacket,
      OrderedMap.contains_iff, loaded.packet_keys]
    by_cases taken : upper packet.header ∈ packetHeaders done
    · have fault : fault? done site = some (.duplicatePacket (upper packet.header)) := by
        simp [fault?, tag, inSection, fragment, starts, found, taken]
      simp only [fault, if_pos taken]
      exact ⟨trivial, trivial⟩
    · have fault : fault? done site = none := by
        simp [fault?, tag, inSection, fragment, starts, found, taken]
      simp only [fault, if_neg taken, Job.ends_report, Job.ends_pure]
      rw [← loaded.packet_keys] at taken
      refine ⟨_, rfl, loaded.opened tag header fault (by simp [Site.owner?, unnamed, found]) ?_ ?_⟩
      · simp [fragmentEntries, Block.fragment?, unnamed]
      · rw [OrderedMap.entries_insert_of_not_mem _ taken]
        simp [packetEntries, Block.packet?, found, Body.ofLines_nil]

/-- A line of the open fragment is put last in its body. -/
theorem fragmentLine (loaded : Loaded done position declared) {earlier : List Block}
    {last : Block} (split : blocks done = earlier ++ [last])
    (longer : blocks (done ++ [site]) = earlier ++ [last.extend site])
    (ascending : (last.lines ++ [site]).Pairwise fun first second => first.line < second.line)
    {fragment : Fragment} (found : last.header.fragment? = some fragment) :
    ∃ after, declared.addLine (.fragment fragment.name) site = .ok after ∧
      after.fragments.entries = fragmentEntries (blocks (done ++ [site])) ∧
      after.packets.entries = packetEntries (blocks (done ++ [site])) := by
  have unnamed : last.header.packet? = none := by
    cases starts : last.header.startsFragment with
    | false => simp [Site.fragment?, starts] at found
    | true => rcases last.header.kinds with h | h | h | h <;> simp_all [Site.packet?]
  have entries : declared.fragments.entries = fragmentEntries earlier
      ++ [(fragment.name, { fragment with body := .ofLines last.lines })] := by
    rw [loaded.fragments, split]
    simp [fragmentEntries, Block.fragment?, found]
  refine ⟨_, Declarations.addLine_fragment (OrderedMap.get?_last entries)
    (Body.add?_ofLines ascending), ?_, ?_⟩
  · rw [OrderedMap.entries_insert_last entries, longer]
    simp [fragmentEntries, Block.fragment?, Block.extend, found]
  · rw [loaded.packets, split, longer]
    simp [packetEntries, Block.packet?, Block.extend, unnamed]

/-- A line of the open packet is put last in its body. -/
theorem packetLine (loaded : Loaded done position declared) {earlier : List Block}
    {last : Block} (split : blocks done = earlier ++ [last])
    (longer : blocks (done ++ [site]) = earlier ++ [last.extend site])
    (ascending : (last.lines ++ [site]).Pairwise fun first second => first.line < second.line)
    (unnamed : last.header.fragment? = none) {packet : Packet}
    (found : last.header.packet? = some packet) :
    ∃ after, declared.addLine (.packet packet.header) site = .ok after ∧
      after.fragments.entries = fragmentEntries (blocks (done ++ [site])) ∧
      after.packets.entries = packetEntries (blocks (done ++ [site])) := by
  have entries : declared.packets.entries = packetEntries earlier
      ++ [(packet.header, { packet with body := .ofLines last.lines })] := by
    rw [loaded.packets, split]
    simp [packetEntries, Block.packet?, found]
  refine ⟨_, Declarations.addLine_packet (OrderedMap.get?_last entries)
    (Body.add?_ofLines ascending), ?_, ?_⟩
  · rw [loaded.fragments, split, longer]
    simp [fragmentEntries, Block.fragment?, Block.extend, unnamed]
  · rw [OrderedMap.entries_insert_last entries, longer]
    simp [packetEntries, Block.packet?, Block.extend, found]

/-- A line of the open declaration is put last in its body. -/
theorem ownerLine (loaded : Loaded done position declared) {earlier : List Block}
    {last : Block} (split : blocks done = earlier ++ [last])
    (longer : blocks (done ++ [site]) = earlier ++ [last.extend site])
    (ascending : (last.lines ++ [site]).Pairwise fun first second => first.line < second.line)
    {owner : Owner} (owned : last.header.owner? = some owner) :
    ∃ after, declared.addLine owner site = .ok after ∧
      after.fragments.entries = fragmentEntries (blocks (done ++ [site])) ∧
      after.packets.entries = packetEntries (blocks (done ++ [site])) := by
  cases named : last.header.fragment? with
  | some fragment =>
    obtain rfl : .fragment fragment.name = owner := by simpa [Site.owner?, named] using owned
    exact loaded.fragmentLine split longer ascending named
  | none =>
    cases headed : last.header.packet? with
    | none => simp [Site.owner?, named, headed] at owned
    | some packet =>
      obtain rfl : .packet packet.header = owner := by
        simpa [Site.owner?, named, headed] using owned
      exact loaded.packetLine split longer ascending named headed

/-- The place stays the same behind a line of a body. -/
theorem extended (loaded : Loaded done position declared) (tag : site.isTag = false)
    (header : site.isHeader = false) (sound : fault? done site = none) {after : Declarations}
    (fragments : after.fragments.entries = fragmentEntries (blocks (done ++ [site])))
    (packets : after.packets.entries = packetEntries (blocks (done ++ [site]))) :
    Loaded (done ++ [site]) position after where
  loadable := loadable_concat.mpr ⟨loaded.loadable, sound⟩
  inSection := by simp [inSection_concat, tag, loaded.inSection]
  owner := by simp [openHeader?_concat, header, closesSection_of_not_tag tag, loaded.owner]
  fragments := fragments
  packets := packets

/-- A line of a body goes to the declaration of the last header. -/
theorem bodyLine (loaded : Loaded done position declared) (body : site.isBodyLine = true)
    (ascending : (done ++ [site]).Pairwise fun first second => first.line < second.line)
    (inside : position.inSection = true) :
    (position.loadCode site).Ends declared fun result after _ =>
      Loads done site declared result after := by
  have kind := body
  simp only [Site.isBodyLine, Site.isHeader, Bool.and_eq_true, Bool.not_eq_true',
    Bool.or_eq_false_iff] at kind
  obtain ⟨tag, fragment, packet⟩ := kind
  have header : site.isHeader = false := by simp [Site.isHeader, fragment, packet]
  have inSection : Layout.inSection done = true := loaded.inSection ▸ inside
  have noFragment : startsWith "Fragment[" site.raw.toList = false := fragment
  have noPacket : startsWith "Packet[" site.raw.toList = false := packet
  unfold Position.loadCode Loads
  simp only [noFragment, noPacket, Bool.false_eq_true, if_false]
  cases opened : openHeader? done with
  | none =>
    have fault : fault? done site = some .noDeclaration := by
      simp [fault?, tag, inSection, fragment, packet, opened]
    have owner : position.owner = none := by rw [loaded.owner, opened]; rfl
    simp only [owner, fault, Job.ends_fail]
    exact ⟨trivial, trivial⟩
  | some first =>
    have sound : fault? done site = none := by
      simp [fault?, tag, inSection, fragment, packet, opened]
    obtain ⟨earlier, last, rfl, split, longer⟩ := blocks_concat_body body opened
    have sublist : last.lines.Sublist done := lines_sublist (by simp [split])
    have later := ascending.sublist (sublist.append_right [site])
    have isHeader := (openHeader?_eq_some_iff.mp opened).1
    have there : last.header ∈ done := by
      obtain ⟨_, before, rest, rfl, _⟩ := openHeader?_eq_some_iff.mp opened
      simp
    obtain ⟨owner, owned⟩ :=
      Option.isSome_iff_exists.mp (loaded.loadable.headers last.header there isHeader)
    obtain ⟨after, made, fragments, packets⟩ := loaded.ownerLine split longer later owned
    simp only [loaded.owner, opened, Option.bind_some, owned, sound]
    unfold declareLine
    rw [Job.ends_bind, ends_changeDeclarations, made]
    exact ⟨position, rfl, loaded.extended tag header sound fragments packets⟩

/-- One line of code. -/
theorem loadLine (loaded : Loaded done position declared)
    (ascending : (done ++ [site]).Pairwise fun first second => first.line < second.line) :
    (position.loadLine site).Ends declared fun result after _ =>
      Loads done site declared result after := by
  rcases site.kinds with ⟨tag, _⟩ | ⟨tag, fragment, _⟩ | ⟨tag, fragment, packet⟩
    | ⟨tag, fragment, packet⟩
  · exact loaded.tag tag
  · exact loaded.code tag (loaded.fragmentHeader tag fragment)
  · exact loaded.code tag (loaded.packetHeader tag fragment packet)
  · have body : site.isBodyLine = true := by
      simp [Site.isBodyLine, Site.isHeader, tag, fragment, packet]
    exact loaded.code tag (loaded.bodyLine body ascending)

end Loaded

/-! ## A whole source -/

/-- The lines of code are the lines of the source that have any, each
under its number. -/
theorem mem_codeLines_iff {source : String} {site : Site} :
    site ∈ codeLines source ↔ 1 ≤ site.line ∧
      (linesFrom [] source.toList)[site.line - 1]?.bind code? = some site.raw.toList := by
  simp only [codeLines, sourceLines, List.mem_filterMap, Option.map_eq_some_iff, Prod.exists,
    List.mem_zipIdx_iff_le_and_getElem?_sub, Option.bind_eq_some_iff]
  constructor
  · rintro ⟨line, number, ⟨least, there⟩, code, found, rfl⟩
    exact ⟨least, line, there, by simpa using found⟩
  · rintro ⟨least, line, there, found⟩
    exact ⟨line, site.line, ⟨least, there⟩, site.raw.toList, found, by simp⟩

/-- The lines of code are numbered in ascending order. -/
theorem ascending_codeLines (source : String) :
    (codeLines source).Pairwise fun first second => first.line < second.line := by
  have numbers : ((sourceLines source).map Prod.snd).Pairwise (· < ·) := by
    rw [sourceLines, List.zipIdx_map_snd]
    exact List.pairwise_lt_range'
  refine List.Pairwise.filterMap _ ?_ (List.pairwise_map.mp numbers)
  rintro ⟨line, number⟩ ⟨other, later⟩ below site made site' made'
  obtain ⟨code, _, rfl⟩ := Option.map_eq_some_iff.mp made
  obtain ⟨code', _, rfl⟩ := Option.map_eq_some_iff.mp made'
  exact below

/-- Loading comes to its end with everything loaded, or stops at the
first line that has a fault. -/
theorem load_ends (source : String) :
    (load source).Ends {} fun result after _ =>
      match result with
      | .ok () => ∃ position, Loaded (codeLines source) position after
      | .error failure => ∃ done site rest position cause,
          codeLines source = done ++ site :: rest ∧ Loaded done position after ∧
            fault? done site = some cause ∧ failure = cause.atSite site := by
  unfold load loadLines
  rw [Job.ends_recordingFailure, Job.ends_bind]
  refine (Job.ends_foldlM_along (fun done position declared => Loaded done position declared)
    (fun done site failure after => ∃ position cause, Loaded done position after ∧
      fault? done site = some cause ∧ failure = cause.atSite site) ?_ Loaded.start).imp
    fun result after _ known => ?_
  · intro done site rest position declared split loaded
    have ascending : (done ++ [site]).Pairwise fun first second => first.line < second.line := by
      refine (ascending_codeLines source).sublist ?_
      rw [split]
      exact List.Sublist.append_left (by simp) done
    refine (loaded.loadLine ascending).imp fun result after _ known => ?_
    unfold Loads at known
    cases fault : fault? done site with
    | none =>
      rw [fault] at known
      obtain ⟨next, rfl, later⟩ := known
      refine ⟨fun position same => ?_, fun failure same => ?_⟩
      · cases same
        exact later
      · cases same
    | some cause =>
      rw [fault] at known
      obtain ⟨rfl, rfl⟩ := known
      refine ⟨fun position same => ?_, fun failure same => ?_⟩
      · cases same
      · cases same
        exact ⟨position, cause, loaded, rfl, rfl⟩
  cases result with
  | ok position => exact ⟨position, known.1 position rfl⟩
  | error failure =>
    obtain ⟨done, site, rest, split, position, cause, loaded, fault, same⟩ :=
      known.2 failure rfl
    exact ⟨done, site, rest, position, cause, split, loaded, fault, same⟩

/-- The declarations are the blocks of the lines, each with its lines. -/
structure Partition (code : List Site) (declared : Declarations) : Prop where
  fragments : declared.fragments.entries = fragmentEntries (blocks code)
  packets : declared.packets.entries = packetEntries (blocks code)
  /-- Every header opens a block. -/
  headers : (blocks code).map Block.header = code.filter Site.isHeader
  /-- Every block declares one fragment or one packet. -/
  single : ∀ block ∈ blocks code, block.fragment?.isSome ≠ block.packet?.isSome
  /-- Every other line that is no tag stands in one block. -/
  lines : (blocks code).flatMap Block.lines = code.filter Site.isBodyLine
  /-- That is the block of the header before it. -/
  nearest : ∀ before site after, code = before ++ site :: after → site.isBodyLine = true →
    ∃ block ∈ blocks code, openHeader? before = some block.header ∧ site ∈ block.lines
  /-- The bodies hold all lines of their blocks. -/
  bodies : ∀ block ∈ blocks code, (Body.ofLines block.lines).lines = block.lines

theorem Loaded.partition {code : List Site} {position : Position} {declared : Declarations}
    (loaded : Loaded code position declared)
    (ascending : code.Pairwise fun first second => first.line < second.line) :
    Partition code declared where
  fragments := loaded.fragments
  packets := loaded.packets
  headers := headers_blocks code
  single block mem := by
    have header : block.header ∈ code.filter Site.isHeader := by
      rw [← headers_blocks]
      exact List.mem_map_of_mem mem
    obtain ⟨there, isHeader⟩ := List.mem_filter.mp header
    have owned := loaded.loadable.headers block.header there isHeader
    rw [Block.fragment?, Block.packet?, Option.isSome_map, Option.isSome_map]
    rw [Site.owner?, Option.isSome_or, Option.isSome_map, Option.isSome_map] at owned
    rcases block.header.kinds with h | h | h | h <;>
      simp_all [Site.fragment?, Site.packet?]
  lines := flatMap_lines_blocks loaded.loadable
  nearest before site after split body := by
    obtain ⟨header, opened⟩ :=
      Option.isSome_iff_exists.mp (loaded.loadable.owned before site after split body)
    obtain ⟨block, mem, rfl, line⟩ :
        ∃ block ∈ blocks (before ++ site :: after), block.header = header ∧ site ∈ block.lines :=
      exists_block body opened
    exact ⟨block, split ▸ mem, opened, line⟩
  bodies block mem := Body.lines_ofLines (ascending.sublist (lines_sublist mem))

end Layout

namespace Workspace

open Layout

/-- What loading a source into an empty workspace comes to. -/
theorem load_cases (source : String) :
    (∃ after, Workspace.load {} source = (.ok (), after) ∧ Loadable (codeLines source) ∧
      Layout.Partition (codeLines source) after.declared ∧ after.results = {}) ∨
    ∃ failure after done rest, Workspace.load {} source = (.error failure, after) ∧
      codeLines source = done ++ failure.site :: rest ∧ Loadable done ∧
      Layout.Partition done after.declared ∧
      fault? done failure.site = some failure.cause := by
  have ascending := ascending_codeLines source
  have ends := load_ends source
  unfold Job.Ends at ends
  unfold Workspace.load onDeclarations
  dsimp only at ends ⊢
  cases loaded : (PacketLayout.load source {}).result with
  | ok _ =>
    rw [loaded] at ends
    obtain ⟨position, here⟩ := ends
    exact .inl ⟨_, rfl, here.loadable, here.partition ascending, rfl⟩
  | error failure =>
    rw [loaded] at ends
    obtain ⟨done, site, rest, position, cause, split, here, fault, rfl⟩ := ends
    have earlier : done.Pairwise fun first second => first.line < second.line :=
      ascending.sublist (by rw [split]; exact List.sublist_append_left done _)
    exact .inr ⟨_, _, done, rest, rfl, split, here.loadable, here.partition earlier, fault⟩

/-- The lines of code are the lines of the source that have code, each
once and under its own number. The source loads into an empty workspace
exactly if they are loadable, and then the declarations are its blocks.
Otherwise the first line with a fault is to blame, and the lines before it
have been taken apart in the same way. No line is refused for its number,
and none for want of a declaration that is gone. -/
theorem load_partition (source : String) :
    (∀ site, site ∈ codeLines source ↔ 1 ≤ site.line ∧
      (linesFrom [] source.toList)[site.line - 1]?.bind code? = some site.raw.toList) ∧
    ((codeLines source).Pairwise fun first second => first.line < second.line) ∧
    ((Workspace.load {} source).1 = .ok () ↔ Loadable (codeLines source)) ∧
      match Workspace.load {} source with
      | (.ok (), after) => Layout.Partition (codeLines source) after.declared
      | (.error failure, after) => ∃ done rest,
          codeLines source = done ++ failure.site :: rest ∧ Loadable done ∧
            Layout.Partition done after.declared ∧
            fault? done failure.site = some failure.cause ∧
            (∀ number, failure.cause ≠ .duplicateLine number) ∧
            (failure.cause = .noDeclaration → openHeader? done = none) := by
  refine ⟨fun _ => mem_codeLines_iff, ascending_codeLines source, ?_⟩
  rcases load_cases source with ⟨after, loaded, loadable, partition, _⟩ |
    ⟨failure, after, done, rest, loaded, split, loadable, partition, fault⟩
  · rw [loaded]
    exact ⟨by simp [loadable], partition⟩
  · have broken : ¬ Loadable (codeLines source) := by
      intro loadable
      rw [split, List.append_cons] at loadable
      have sound := (loadable_concat.mp (loadable_of_append loadable)).2
      rw [fault] at sound
      cases sound
    have known := fault?_cases fault
    rw [loaded]
    refine ⟨by simp [broken], done, rest, split, loadable, partition, fault,
      fun number same => ?_, fun same => ?_⟩
    · simp [same] at known
    · simpa [same] using known

end Workspace

end PacketLayout
