/-
PacketLayout.Proofs.Loading.Blocks — the declarations of a source, read
off its lines.

The lines of code of a source are looked at here all at once: which of
them stand in a parser section, which are headers, and which lines belong
to which header. A block is a header with its lines, and the blocks are
what a source declares. Nothing is collected and nothing is refused on
the way.

`Loadable` says which lines make a source, and `fault?` what is wrong
with one line behind those before it.

* `flatMap_lines_blocks`: in a loadable source every line is a tag, a
  header, or a line of exactly one block.
* `blocks_concat_header`, `blocks_concat_body`: one more line opens a
  block, or goes to the last one.
* `loadable_concat`: lines stay loadable as long as none of them has a
  fault.
-/
import Mathlib.Data.List.Induction
import PacketLayout.Loading

namespace PacketLayout

open Text

/-! ## Lines of a source -/

namespace Site

/-- The line opens a parser section. -/
def opensSection (site : Site) : Bool :=
  site.raw == "<parser>"

/-- The line ends a parser section. -/
def closesSection (site : Site) : Bool :=
  site.raw == "</parser>"

def isTag (site : Site) : Bool :=
  site.opensSection || site.closesSection

def startsFragment (site : Site) : Bool :=
  startsWith "Fragment[" site.raw.toList

def startsPacket (site : Site) : Bool :=
  startsWith "Packet[" site.raw.toList

/-- The line starts as a header does, whether it is well-formed or
not. -/
def isHeader (site : Site) : Bool :=
  site.startsFragment || site.startsPacket

/-- The line is neither a tag nor a header. -/
def isBodyLine (site : Site) : Bool :=
  !site.isTag && !site.isHeader

/-- The fragment that a header declares, still without lines. -/
def fragment? (site : Site) : Option Fragment :=
  if site.startsFragment then
    (readFragmentHeader? site.raw.toList).map fun name => { name, line := site.line }
  else none

/-- The packet that a header declares, still without lines. -/
def packet? (site : Site) : Option Packet :=
  if site.startsPacket then
    (readPacketHeader? site.raw.toList).map fun packet =>
      { description := packet.description, header := upper packet.header, line := site.line }
  else none

/-- The declaration that a header opens, if it is well-formed. -/
def owner? (site : Site) : Option Owner :=
  (site.fragment?.map fun fragment => Owner.fragment fragment.name).or
    (site.packet?.map fun packet => Owner.packet packet.header)

/-- The four kinds of lines: they start with different letters. -/
theorem kinds (site : Site) :
    (site.isTag = true ∧ site.startsFragment = false ∧ site.startsPacket = false) ∨
    (site.isTag = false ∧ site.startsFragment = true ∧ site.startsPacket = false) ∨
    (site.isTag = false ∧ site.startsFragment = false ∧ site.startsPacket = true) ∨
    (site.isTag = false ∧ site.startsFragment = false ∧ site.startsPacket = false) := by
  have word {word : String} {c : Char} (head : word.toList.head? = some c)
      (starts : startsWith word site.raw.toList = true) : site.raw.toList.head? = some c := by
    obtain ⟨rest, found⟩ := Option.isSome_iff_exists.mp starts
    rw [after?_eq_some_iff.mp found, List.head?_append, head]
    rfl
  have tag (h : site.isTag = true) : site.raw.toList.head? = some '<' := by
    simp only [isTag, opensSection, closesSection, Bool.or_eq_true, beq_iff_eq] at h
    rcases h with same | same
    · rw [same]; rfl
    · rw [same]; rfl
  have fragment (h : site.startsFragment = true) : site.raw.toList.head? = some 'F' := word rfl h
  have packet (h : site.startsPacket = true) : site.raw.toList.head? = some 'P' := word rfl h
  cases t : site.isTag <;> cases f : site.startsFragment <;> cases p : site.startsPacket <;>
    simp_all

end Site

/-- The body with these lines, if they are in ascending order. -/
def Body.ofLines (lines : List Site) : Body :=
  if h : lines.Pairwise fun first second => first.line < second.line then ⟨lines, h⟩ else .empty

theorem Body.ofLines_nil : Body.ofLines [] = .empty := by
  simp [Body.ofLines, Body.empty]

theorem Body.lines_ofLines {lines : List Site}
    (ascending : lines.Pairwise fun first second => first.line < second.line) :
    (Body.ofLines lines).lines = lines := by
  rw [Body.ofLines, dif_pos ascending]

/-! ## Blocks -/

/-- A declaration as it is written: its header, and the lines that belong
to it. -/
structure Block where
  header : Site
  lines : List Site

namespace Block

/-- The fragment that the block declares. -/
def fragment? (block : Block) : Option Fragment :=
  block.header.fragment?.map fun fragment => { fragment with body := .ofLines block.lines }

/-- The packet that the block declares. -/
def packet? (block : Block) : Option Packet :=
  block.header.packet?.map fun packet => { packet with body := .ofLines block.lines }

/-- The block with one more line. -/
def extend (block : Block) (site : Site) : Block :=
  ⟨block.header, block.lines ++ [site]⟩

end Block

namespace Layout

/-- Nothing after the line belongs to the header before it. -/
def stops (site : Site) : Bool :=
  site.isHeader || site.closesSection

/-- The lines up to the next header or the end of the section, without
tags. -/
def bodyOf (code : List Site) : List Site :=
  (code.takeWhile fun site => !stops site).filter fun site => !site.isTag

/-- The blocks that the lines write, in order. -/
def blocks : List Site → List Block
  | [] => []
  | site :: rest => if site.isHeader then ⟨site, bodyOf rest⟩ :: blocks rest else blocks rest

/-- The last tag opens a section. -/
def inSection (code : List Site) : Bool :=
  (code.filter Site.isTag).getLast?.any Site.opensSection

/-- The last header, if the section has not ended since. -/
def openHeader? (code : List Site) : Option Site :=
  (code.filter stops).getLast?.filter Site.isHeader

def fragmentNames (code : List Site) : List String :=
  (code.filterMap Site.fragment?).map Fragment.name

/-- The headers of the packets, in capitals. -/
def packetHeaders (code : List Site) : List String :=
  (code.filterMap Site.packet?).map Packet.header

/-- The lines make a source. -/
structure Loadable (code : List Site) : Prop where
  /-- Every line that is no tag stands in a section. -/
  inside : ∀ before site after, code = before ++ site :: after → site.isTag = false →
    inSection before = true
  /-- Every header is well-formed. -/
  headers : ∀ site ∈ code, site.isHeader = true → site.owner?.isSome = true
  names : (fragmentNames code).Nodup
  packets : (packetHeaders code).Nodup
  /-- Every other line has a header before it, with no end of a section in
  between. -/
  owned : ∀ before site after, code = before ++ site :: after → site.isBodyLine = true →
    (openHeader? before).isSome = true

/-- What is wrong with a line behind the lines before it. -/
def fault? (done : List Site) (site : Site) : Option Cause :=
  if site.isTag then none
  else if !inSection done then some .outsideSection
  else if site.startsFragment then
    match site.fragment? with
    | none => some .malformedFragmentHeader
    | some fragment =>
      if fragment.name ∈ fragmentNames done then some (.duplicateFragment fragment.name) else none
  else if site.startsPacket then
    match site.packet? with
    | none => some .malformedPacketHeader
    | some packet =>
      if packet.header ∈ packetHeaders done then some (.duplicatePacket packet.header) else none
  else if (openHeader? done).isNone then some .noDeclaration
  else none

/-! ## The lines of a block -/

variable {code done before after : List Site} {site header : Site}

theorem isHeader_of_isTag (tag : site.isTag = true) : site.isHeader = false := by
  rcases site.kinds with h | h | h | h <;> simp_all [Site.isHeader]

theorem fragment?_eq_none (other : site.isHeader = false) : site.fragment? = none := by
  have starts : site.startsFragment = false := by
    rw [Site.isHeader, Bool.or_eq_false_iff] at other
    exact other.1
  simp [Site.fragment?, starts]

theorem packet?_eq_none (other : site.isHeader = false) : site.packet? = none := by
  have starts : site.startsPacket = false := by
    rw [Site.isHeader, Bool.or_eq_false_iff] at other
    exact other.2
  simp [Site.packet?, starts]

theorem closesSection_of_not_tag (tag : site.isTag = false) : site.closesSection = false := by
  rw [Site.isTag, Bool.or_eq_false_iff] at tag
  exact tag.2

theorem stops_of_isBodyLine (body : site.isBodyLine = true) : stops site = false := by
  simp only [Site.isBodyLine, Bool.and_eq_true, Bool.not_eq_true'] at body
  simp [stops, body.2, closesSection_of_not_tag body.1]

/-- Lines that start with no body add nothing to the one before them. -/
theorem bodyOf_append (bare : bodyOf after = []) : bodyOf (before ++ after) = bodyOf before := by
  induction before with
  | nil => exact bare
  | cons first rest ih =>
    cases stopped : stops first with
    | true => simp [bodyOf, stopped]
    | false =>
      simp only [bodyOf, List.cons_append, List.takeWhile_cons, stopped, Bool.not_false,
        if_true, List.filter_cons] at ih ⊢
      rw [ih]

theorem bodyOf_sublist (code : List Site) : (bodyOf code).Sublist code :=
  List.filter_sublist.trans (List.takeWhile_sublist _)

/-- Where nothing stops, every line that is no tag counts. -/
theorem bodyOf_of_free (free : ∀ site ∈ code, stops site = false) :
    bodyOf code = code.filter fun site => !site.isTag := by
  have all : ∀ site ∈ code, (!stops site) = true := by simpa using free
  simpa [bodyOf] using congrArg (List.filter fun site => !site.isTag)
    (@List.takeWhile_append_of_pos _ _ code [] all)

theorem bodyOf_of_header (isHeader : header.isHeader = true) : bodyOf (header :: after) = [] := by
  simp [bodyOf, stops, isHeader]

theorem bodyOf_of_tag (tag : site.isTag = true) : bodyOf [site] = [] := by
  cases stopped : stops site <;> simp [bodyOf, stopped, tag]

/-! ## Blocks, line by line -/

theorem blocks_of_no_header (free : ∀ site ∈ code, site.isHeader = false) : blocks code = [] := by
  induction code with
  | nil => rfl
  | cons first rest ih =>
    simp [blocks, free first (by simp), ih fun site mem => free site (by simp [mem])]

/-- A header opens a block of its own, wherever it stands. -/
theorem blocks_append_header (isHeader : header.isHeader = true) :
    blocks (before ++ header :: after)
      = blocks before ++ ⟨header, bodyOf after⟩ :: blocks after := by
  induction before with
  | nil => simp [blocks, isHeader]
  | cons first rest ih =>
    rw [List.cons_append, blocks, blocks, ih, bodyOf_append (bodyOf_of_header isHeader)]
    split
    · rfl
    · rfl

theorem blocks_concat_header (isHeader : header.isHeader = true) :
    blocks (done ++ [header]) = blocks done ++ [⟨header, []⟩] :=
  blocks_append_header isHeader

theorem blocks_concat_tag (tag : site.isTag = true) : blocks (done ++ [site]) = blocks done := by
  induction done with
  | nil => simp [blocks, isHeader_of_isTag tag]
  | cons first rest ih =>
    rw [List.cons_append, blocks, blocks, ih, bodyOf_append (bodyOf_of_tag tag)]

theorem openHeader?_eq_some_iff :
    openHeader? code = some header ↔
      header.isHeader = true ∧ ∃ before after, code = before ++ header :: after ∧
        ∀ site ∈ after, stops site = false := by
  unfold openHeader?
  rw [Option.filter_eq_some_iff, List.getLast?_eq_some_iff, and_comm]
  refine and_congr_right fun isHeader => ?_
  constructor
  · rintro ⟨earlier, split⟩
    obtain ⟨before, last, rfl, _, stopped⟩ := List.filter_eq_append_iff.mp split
    obtain ⟨skipped, after, rfl, _, _, none⟩ := List.filter_eq_cons_iff.mp stopped
    exact ⟨before ++ skipped, after, by simp, by simpa using none⟩
  · rintro ⟨before, after, rfl, free⟩
    have none : after.filter stops = [] := by simpa using free
    exact ⟨before.filter stops, by simp [stops, isHeader, none]⟩

/-- Any other line goes to the block of the header before it. -/
theorem blocks_concat_body (body : site.isBodyLine = true)
    (opened : openHeader? done = some header) :
    ∃ earlier last, last.header = header ∧ blocks done = earlier ++ [last] ∧
      blocks (done ++ [site]) = earlier ++ [last.extend site] := by
  obtain ⟨isHeader, before, after, rfl, free⟩ := openHeader?_eq_some_iff.mp opened
  have freeAfter : ∀ other ∈ after ++ [site], stops other = false := by
    intro other mem
    rcases List.mem_append.mp mem with old | new
    · exact free other old
    · obtain rfl : other = site := by simpa using new
      exact stops_of_isBodyLine body
  have headless {lines : List Site} (free : ∀ other ∈ lines, stops other = false) :
      blocks lines = [] := by
    refine blocks_of_no_header fun other mem => ?_
    have none := free other mem
    rw [stops, Bool.or_eq_false_iff] at none
    exact none.1
  simp only [Site.isBodyLine, Bool.and_eq_true, Bool.not_eq_true'] at body
  refine ⟨blocks before, ⟨header, bodyOf after⟩, rfl, ?_, ?_⟩
  · rw [blocks_append_header isHeader, headless free]
  · rw [List.append_assoc, List.cons_append, blocks_append_header isHeader, headless freeAfter,
      bodyOf_of_free freeAfter, bodyOf_of_free free, List.filter_append]
    simp [Block.extend, body.1]

theorem mem_bodyOf (free : ∀ other ∈ before, stops other = false)
    (body : site.isBodyLine = true) : site ∈ bodyOf (before ++ site :: after) := by
  have here := stops_of_isBodyLine body
  simp only [Site.isBodyLine, Bool.and_eq_true] at body
  have all : ∀ other ∈ before, (!stops other) = true := by simpa using free
  rw [bodyOf, List.takeWhile_append_of_pos all, List.takeWhile_cons]
  simp [here, body.1]

/-- A line goes to the block of the last header before it. -/
theorem exists_block (body : site.isBodyLine = true) (opened : openHeader? before = some header) :
    ∃ block ∈ blocks (before ++ site :: after), block.header = header ∧ site ∈ block.lines := by
  obtain ⟨isHeader, earlier, between, rfl, free⟩ := openHeader?_eq_some_iff.mp opened
  rw [List.append_assoc, List.cons_append, blocks_append_header isHeader]
  exact ⟨⟨header, bodyOf (between ++ site :: after)⟩, by simp, rfl, mem_bodyOf free body⟩

theorem headers_blocks (code : List Site) :
    (blocks code).map Block.header = code.filter Site.isHeader := by
  induction code with
  | nil => rfl
  | cons first rest ih =>
    cases header : first.isHeader with
    | true => simp [blocks, header, ih]
    | false => simp [blocks, header, ih]

theorem lines_sublist {block : Block} (mem : block ∈ blocks code) :
    block.lines.Sublist code := by
  induction code with
  | nil => cases mem
  | cons first rest ih =>
    rw [blocks] at mem
    split at mem
    · rcases List.mem_cons.mp mem with rfl | mem
      · exact (bodyOf_sublist rest).cons first
      · exact (ih mem).cons first
    · exact (ih mem).cons first

/-- What only headers give, the headers of the blocks give. -/
theorem filterMap_blocks {α : Type} {read : Site → Option α}
    (only : ∀ site : Site, site.isHeader = false → read site = none) (code : List Site) :
    (blocks code).filterMap (fun block => read block.header) = code.filterMap read := by
  calc (blocks code).filterMap (fun block => read block.header)
      = (code.filter Site.isHeader).filterMap read := by
        rw [← headers_blocks, List.filterMap_map]
        rfl
    _ = code.filterMap read := by
        rw [List.filterMap_filter]
        refine congrArg (code.filterMap ·) (funext fun site => ?_)
        cases header : site.isHeader with
        | true => rfl
        | false => exact (only site header).symm

/-- The names of the fragments that the blocks declare. -/
theorem names_blocks (code : List Site) :
    ((blocks code).filterMap Block.fragment?).map Fragment.name = fragmentNames code := by
  rw [fragmentNames, ← filterMap_blocks (fun _ => fragment?_eq_none), List.map_filterMap,
    List.map_filterMap]
  simp only [Block.fragment?, Option.map_map, Function.comp_def]

/-- The headers of the packets that the blocks declare. -/
theorem packetHeaders_blocks (code : List Site) :
    ((blocks code).filterMap Block.packet?).map Packet.header = packetHeaders code := by
  rw [packetHeaders, ← filterMap_blocks (fun _ => packet?_eq_none), List.map_filterMap,
    List.map_filterMap]
  simp only [Block.packet?, Option.map_map, Function.comp_def]

/-! ## One more line -/

/-- What holds of every line behind those before it, for one more line. -/
theorem forall_split_concat {α : Type} {earlier : List α} {last : α}
    {holds : List α → α → Prop} :
    (∀ before item after, earlier ++ [last] = before ++ item :: after → holds before item) ↔
      (∀ before item after, earlier = before ++ item :: after → holds before item) ∧
        holds earlier last := by
  constructor
  · intro all
    refine ⟨fun before item after split => ?_, all earlier last [] rfl⟩
    exact all before item (after ++ [last]) (by simp [split])
  · rintro ⟨all, here⟩ before item after split
    rcases List.eq_nil_or_concat after with rfl | ⟨front, final, rfl⟩
    · obtain ⟨rfl, same⟩ := List.append_inj' split rfl
      obtain rfl : last = item := by simpa using same
      exact here
    · rw [List.concat_eq_append, ← List.cons_append, ← List.append_assoc] at split
      obtain ⟨rfl, _⟩ := List.append_inj' split rfl
      exact all before item front rfl

theorem inSection_concat (done : List Site) (site : Site) :
    inSection (done ++ [site])
      = if site.isTag then site.opensSection else inSection done := by
  unfold inSection
  cases tag : site.isTag <;> simp [tag]

theorem openHeader?_concat (done : List Site) (site : Site) :
    openHeader? (done ++ [site])
      = if site.isHeader then some site
        else if site.closesSection then none else openHeader? done := by
  unfold openHeader? stops
  cases header : site.isHeader with
  | true => simp [header]
  | false => cases closes : site.closesSection <;> simp [header, closes]

theorem fragmentNames_concat (done : List Site) (site : Site) :
    fragmentNames (done ++ [site])
      = fragmentNames done ++ (site.fragment?.map Fragment.name).toList := by
  unfold fragmentNames
  cases found : site.fragment? <;> simp [found]

theorem packetHeaders_concat (done : List Site) (site : Site) :
    packetHeaders (done ++ [site])
      = packetHeaders done ++ (site.packet?.map Packet.header).toList := by
  unfold packetHeaders
  cases found : site.packet? <;> simp [found]

theorem nodup_append_toList {names : List String} {new : Option String} :
    (names ++ new.toList).Nodup ↔ names.Nodup ∧ ∀ name, new = some name → name ∉ names := by
  cases new with
  | none => simp
  | some name =>
    rw [Option.toList_some, List.nodup_append]
    constructor
    · rintro ⟨old, _, apart⟩
      refine ⟨old, fun other same mem => ?_⟩
      cases same
      exact apart name mem name (by simp) rfl
    · rintro ⟨old, new⟩
      refine ⟨old, by simp, fun other mem last here same => ?_⟩
      obtain rfl : last = name := by simpa using here
      exact new last rfl (same ▸ mem)

theorem loadable_nil : Loadable [] where
  inside before site after split := by simp at split
  headers site mem := nomatch mem
  names := List.nodup_nil
  packets := List.nodup_nil
  owned before site after split := by simp at split

/-- What the last one of some lines has to be like. -/
theorem loadable_concat_iff :
    Loadable (done ++ [site]) ↔ Loadable done ∧
      (site.isTag = false → inSection done = true) ∧
      (site.isHeader = true → site.owner?.isSome = true) ∧
      (∀ name, site.fragment?.map Fragment.name = some name → name ∉ fragmentNames done) ∧
      (∀ header, site.packet?.map Packet.header = some header → header ∉ packetHeaders done) ∧
      (site.isBodyLine = true → (openHeader? done).isSome = true) := by
  constructor
  · rintro ⟨inside, headers, names, packets, owned⟩
    obtain ⟨inside, here⟩ := forall_split_concat.mp inside
    obtain ⟨owned, own⟩ := forall_split_concat.mp owned
    rw [fragmentNames_concat, nodup_append_toList] at names
    rw [packetHeaders_concat, nodup_append_toList] at packets
    exact ⟨⟨inside, fun other mem => headers other (by simp [mem]), names.1, packets.1, owned⟩,
      here, headers site (by simp), names.2, packets.2, own⟩
  · rintro ⟨⟨inside, headers, names, packets, owned⟩, here, header, name, packet, own⟩
    refine ⟨forall_split_concat.mpr ⟨inside, here⟩, fun other mem => ?_, ?_, ?_,
      forall_split_concat.mpr ⟨owned, own⟩⟩
    · rcases List.mem_append.mp mem with old | new
      · exact headers other old
      · obtain rfl : other = site := by simpa using new
        exact header
    · rw [fragmentNames_concat]
      exact nodup_append_toList.mpr ⟨names, name⟩
    · rw [packetHeaders_concat]
      exact nodup_append_toList.mpr ⟨packets, packet⟩

/-- Lines stay loadable exactly as long as none of them has a fault. -/
theorem loadable_concat :
    Loadable (done ++ [site]) ↔ Loadable done ∧ fault? done site = none := by
  rw [loadable_concat_iff]
  refine and_congr_right fun _ => ?_
  unfold fault?
  rcases site.kinds with ⟨tag, fragment, packet⟩ | ⟨tag, fragment, packet⟩ | ⟨tag, fragment, packet⟩
    | ⟨tag, fragment, packet⟩
  · simp [tag, fragment, packet, Site.isHeader, Site.isBodyLine, Site.fragment?, Site.packet?]
  · have other : site.packet? = none := by simp [Site.packet?, packet]
    cases inSection done with
    | false => simp [tag]
    | true =>
      cases found : site.fragment? with
      | none => simp [tag, fragment, found, other, Site.isHeader, Site.owner?]
      | some made =>
        simp [tag, fragment, found, other, Site.isHeader, Site.isBodyLine, Site.owner?]
  · have other : site.fragment? = none := by simp [Site.fragment?, fragment]
    cases inSection done with
    | false => simp [tag]
    | true =>
      cases found : site.packet? with
      | none => simp [tag, fragment, packet, found, other, Site.isHeader, Site.owner?]
      | some made =>
        simp [tag, fragment, packet, found, other, Site.isHeader, Site.isBodyLine, Site.owner?]
  · cases inSection done with
    | false => simp [tag]
    | true =>
      simp [tag, fragment, packet, Site.isHeader, Site.isBodyLine, Site.fragment?, Site.packet?,
        Option.isSome_iff_ne_none]

theorem loadable_of_append (loadable : Loadable (before ++ after)) : Loadable before := by
  induction after using List.reverseRecOn with
  | nil => simpa using loadable
  | append_singleton rest last ih =>
    rw [← List.append_assoc] at loadable
    exact ih (loadable_concat.mp loadable).1

/-- The faults that a line can have. -/
theorem fault?_cases {cause : Cause} (fault : fault? done site = some cause) :
    cause = .outsideSection ∨ cause = .malformedFragmentHeader ∨ cause = .malformedPacketHeader ∨
      (∃ name, cause = .duplicateFragment name) ∨ (∃ header, cause = .duplicatePacket header) ∨
      cause = .noDeclaration ∧ openHeader? done = none := by
  unfold fault? at fault
  split at fault
  · cases fault
  · split at fault
    · cases fault
      simp
    · split at fault
      · split at fault
        · cases fault
          simp
        · split at fault
          · cases fault
            simp
          · cases fault
      · split at fault
        · split at fault
          · cases fault
            simp
          · split at fault
            · cases fault
              simp
            · cases fault
        · split at fault
          · rename_i free
            cases fault
            simpa using free
          · cases fault

/-- Every line of a loadable source is a tag, a header, or a line of
exactly one block. -/
theorem flatMap_lines_blocks (loadable : Loadable code) :
    (blocks code).flatMap Block.lines = code.filter Site.isBodyLine := by
  induction code using List.reverseRecOn with
  | nil => rfl
  | append_singleton done site ih =>
    obtain ⟨before, _, _, _, _, owned⟩ := loadable_concat_iff.mp loadable
    rw [List.filter_append]
    cases tag : site.isTag with
    | true => simp [blocks_concat_tag tag, ih before, Site.isBodyLine, tag]
    | false =>
      cases header : site.isHeader with
      | true => simp [blocks_concat_header header, ih before, Site.isBodyLine, header]
      | false =>
        have body : site.isBodyLine = true := by simp [Site.isBodyLine, tag, header]
        obtain ⟨opened, found⟩ := Option.isSome_iff_exists.mp (owned body)
        obtain ⟨earlier, last, _, split, longer⟩ := blocks_concat_body body found
        have lines := ih before
        rw [split] at lines
        simp [longer, Block.extend, body, ← lines]

end Layout

end PacketLayout
