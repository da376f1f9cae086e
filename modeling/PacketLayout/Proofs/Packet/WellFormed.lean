/-
PacketLayout.Proofs.Packet.WellFormed — the rules for the lines of a
packet.

`WellFormed` says of the lines as a whole what makes them a packet: where
the placeholder stands, how the marks of repeated groups follow each
other, where the main body ends, and how branches differ. The rules
compare lines that may be far apart, and know of no order in which they
are looked at.

`Admitted` is what is left of the rules for lines that may still go on:
a group may be open, and the last branch may grow. It is the part that
can be followed line by line.

* `admitted_concat`: lines that are admitted go on being so if the next
  line `Fits`.
* `wellFormed_iff`: lines that are admitted are well-formed if no group is
  open and the last branch differs from the others.
-/
import Mathlib.Data.List.Chain
import PacketLayout.Proofs.Packet.Outline

namespace PacketLayout

open Outline Text

/-! ## Lines -/

namespace BodyLine

def isPack : BodyLine → Bool
  | .control .pack => true
  | _ => false

/-- A mark of a repeated group. -/
def isRepeat : BodyLine → Bool
  | .control .repeatStart => true
  | .control .repeatEnd => true
  | _ => false

def header? : BodyLine → Option BranchHeader
  | .branch header => some header
  | _ => none

end BodyLine

/-- What counts for repeated groups: where they start and stop, and where
none may be open. -/
inductive Mark where
  | start
  | stop
  | wall
  deriving DecidableEq

/-- The mark of a line; whether `pack` is a wall depends on its place. -/
def BodyLine.mark? (packWall : Bool) : BodyLine → Option Mark
  | .control .repeatStart => some .start
  | .control .repeatEnd => some .stop
  | .control .pack => if packWall then some .wall else none
  | .branch _ => some .wall
  | _ => none

/-- Two marks may follow each other: a group is stopped right after it
was started, and nowhere else. -/
def Mark.Linked (first second : Mark) : Prop :=
  first = .start ↔ second = .stop

instance : DecidableRel Mark.Linked :=
  fun first second => inferInstanceAs (Decidable (first = .start ↔ second = .stop))

namespace Outline

/-! ## Parts -/

/-- The marks of the lines. Before the first branch `pack` is a wall. -/
def marks : List BodyLine → List Mark :=
  parted BodyLine.isHeader (fun line => (line.mark? true).toList)
    fun line => (line.mark? false).toList

/-- The last mark; the lines stand behind a wall. -/
def lastMark (lines : List BodyLine) : Mark :=
  (marks lines).getLast?.getD .wall

/-- The descriptions of the branches, as far as they have one. -/
def descriptions (lines : List BodyLine) : List String :=
  ((lines.filterMap BodyLine.header?).map BranchHeader.description).filter (· != "")

/-- The discriminators of the branches, as far as they have one. -/
def discriminators (lines : List BodyLine) : List String :=
  (lines.filterMap BodyLine.header?).filterMap BranchHeader.discriminator

/-- The branches that have a text and are not the last one. -/
def earlierBranches (lines : List BodyLine) : List WrittenBranch :=
  (writtenBranches lines).dropLast.filter fun branch => branch.text != ""

/-- The branches that are compared with each other: without a
placeholder the last one is not. -/
def comparedBranches (lines : List BodyLine) : List WrittenBranch :=
  if hasPlaceholder lines then filledBranches lines else earlierBranches lines

end Outline

/-! ## The rules -/

/-- A later line may be a placeholder only if the earlier one is neither
a placeholder nor a header nor `pack`. -/
def BodyLine.PlaceBefore (earlier later : BodyLine) : Prop :=
  later.isPlaceholder = true →
    earlier.isPlaceholder = false ∧ earlier.isHeader = false ∧ earlier.isPack = false

/-- A later line may be a mark of a repeated group only if the earlier
one is not `pack`. -/
def BodyLine.RepeatBefore (earlier later : BodyLine) : Prop :=
  later.isRepeat = true → earlier.isPack = false

instance : DecidableRel BodyLine.PlaceBefore :=
  fun _ later => inferInstanceAs (Decidable (later.isPlaceholder = true → _ ∧ _ ∧ _))

instance : DecidableRel BodyLine.RepeatBefore :=
  fun _ later => inferInstanceAs (Decidable (later.isRepeat = true → _))

/-- The lines make a packet. -/
structure WellFormed (lines : List BodyLine) : Prop where
  /-- There is at most one placeholder, and it stands before every header
  and every `pack`. -/
  place : lines.Pairwise BodyLine.PlaceBefore
  /-- Groups are started and stopped in turn. No header stands in a
  group, no `pack` before the first header does, and the lines do not end
  in one. -/
  groups : (.wall :: (marks lines ++ [.wall])).IsChain Mark.Linked
  /-- Before the first header no mark of a group stands behind `pack`. -/
  packed : (opening lines).Pairwise BodyLine.RepeatBefore
  /-- Descriptions are distinct. -/
  descriptions : (descriptions lines).Nodup
  /-- Discriminators are distinct, whatever the case of their letters. -/
  discriminators : ((discriminators lines).map upper).Nodup
  /-- The texts of the branches are distinct. Blank branches do not
  count, and without a placeholder the last one does not. -/
  texts : ((comparedBranches lines).map WrittenBranch.text).Nodup

instance (lines : List BodyLine) : Decidable (WellFormed lines) :=
  decidable_of_iff
    (lines.Pairwise BodyLine.PlaceBefore ∧
      (.wall :: (marks lines ++ [.wall])).IsChain Mark.Linked ∧
      (opening lines).Pairwise BodyLine.RepeatBefore ∧ (descriptions lines).Nodup ∧
      ((discriminators lines).map upper).Nodup ∧
      ((comparedBranches lines).map WrittenBranch.text).Nodup)
    ⟨fun ⟨place, groups, packed, described, told, texts⟩ =>
        ⟨place, groups, packed, described, told, texts⟩,
      fun ⟨place, groups, packed, described, told, texts⟩ =>
        ⟨place, groups, packed, described, told, texts⟩⟩

/-- The lines may be the first ones of a packet. -/
structure Admitted (lines : List BodyLine) : Prop where
  place : lines.Pairwise BodyLine.PlaceBefore
  groups : (.wall :: marks lines).IsChain Mark.Linked
  packed : (opening lines).Pairwise BodyLine.RepeatBefore
  descriptions : (Outline.descriptions lines).Nodup
  discriminators : ((Outline.discriminators lines).map upper).Nodup
  texts : ((earlierBranches lines).map WrittenBranch.text).Nodup

/-- The last branch has no text, or another one than those before it. -/
def LastDiffers (lines : List BodyLine) : Prop :=
  ∀ last, (writtenBranches lines).getLast? = some last → last.text ≠ "" →
    last.text ∉ (earlierBranches lines).map WrittenBranch.text

/-- The main body is still open, or a branch is. -/
def Inside (lines : List BodyLine) : Prop :=
  lines.any BodyLine.isHeader = false → lines.any BodyLine.isPack = false

/-- The line may follow. -/
def Fits (lines : List BodyLine) : BodyLine → Prop
  | .field _ => True
  | .branch header =>
    lastMark lines ≠ .start ∧
      (header.description ≠ "" → header.description ∉ descriptions lines) ∧
      (∀ bytes, header.discriminator = some bytes →
        upper bytes ∉ (discriminators lines).map upper) ∧
      LastDiffers lines
  | .control (.fragmentRef _) => True
  | .control .placeholder =>
    hasPlaceholder lines = false ∧ lines.any BodyLine.isHeader = false ∧
      lines.any BodyLine.isPack = false
  | .control .repeatStart => lastMark lines ≠ .start ∧ Inside lines
  | .control .repeatEnd => lastMark lines = .start ∧ Inside lines
  | .control .pack => lines.any BodyLine.isHeader = false → lastMark lines ≠ .start
  | .unrecognized => False

/-! ## One more line, rule by rule -/

section Concat

variable {lines : List BodyLine} {line : BodyLine}

theorem pairwise_concat {α : Type} {R : α → α → Prop} {earlier : List α} {last : α} :
    (earlier ++ [last]).Pairwise R ↔ earlier.Pairwise R ∧ ∀ item ∈ earlier, R item last := by
  simp [List.pairwise_append]

theorem place_concat :
    (lines ++ [line]).Pairwise BodyLine.PlaceBefore ↔
      lines.Pairwise BodyLine.PlaceBefore ∧
        (line.isPlaceholder = true → hasPlaceholder lines = false ∧
          lines.any BodyLine.isHeader = false ∧ lines.any BodyLine.isPack = false) := by
  have free : (∀ earlier ∈ lines, earlier.PlaceBefore line) ↔
      (line.isPlaceholder = true → hasPlaceholder lines = false ∧
        lines.any BodyLine.isHeader = false ∧ lines.any BodyLine.isPack = false) := by
    simp only [BodyLine.PlaceBefore, hasPlaceholder, List.any_eq_false, Bool.not_eq_true]
    constructor
    · intro each place
      exact ⟨fun other mem => (each other mem place).1, fun other mem => (each other mem place).2.1,
        fun other mem => (each other mem place).2.2⟩
    · intro all other mem place
      obtain ⟨noPlace, noHeader, noPack⟩ := all place
      exact ⟨noPlace other mem, noHeader other mem, noPack other mem⟩
  rw [pairwise_concat, free]

theorem packed_concat :
    (opening (lines ++ [line])).Pairwise BodyLine.RepeatBefore ↔
      (opening lines).Pairwise BodyLine.RepeatBefore ∧
        (line.isRepeat = true → Inside lines) := by
  rw [opening_concat]
  cases headed : lines.any BodyLine.isHeader with
  -- behind a header the opening is over, and every line is inside
  | true => simp [Inside, headed]
  | false =>
    cases header : line.isHeader with
    | true =>
      have none : line.isRepeat = false := by
        cases line with
        | branch header => rfl
        | _ => cases header
      simp [none]
    | false =>
      have free : (∀ earlier ∈ lines, earlier.RepeatBefore line) ↔
          (line.isRepeat = true → Inside lines) := by
        simp only [BodyLine.RepeatBefore, Inside, headed, List.any_eq_false, Bool.not_eq_true,
          true_implies]
        exact ⟨fun each mark other mem => each other mem mark,
          fun all other mem mark => all mark other mem⟩
      simp only [Bool.or_self, Bool.false_eq_true, if_false]
      rw [pairwise_concat, opening_of_no_header headed, free]

theorem getLast?_wall_marks (lines : List BodyLine) :
    (Mark.wall :: marks lines).getLast? = some (lastMark lines) := by
  rw [List.getLast?_cons, lastMark]

theorem isChain_marks_concat {mark : Mark} :
    (.wall :: (marks lines ++ [mark])).IsChain Mark.Linked ↔
      (.wall :: marks lines).IsChain Mark.Linked ∧ (lastMark lines).Linked mark := by
  rw [← List.cons_append, List.isChain_append, getLast?_wall_marks]
  simp

theorem marks_concat (lines : List BodyLine) (line : BodyLine) :
    marks (lines ++ [line])
      = marks lines ++ (line.mark? (!lines.any BodyLine.isHeader)).toList := by
  have always : line.isHeader = true → line.mark? false = line.mark? true := by
    intro header
    cases line with
    | branch header => rfl
    | _ => cases header
  rw [marks, parted_concat]
  cases headed : lines.any BodyLine.isHeader with
  | true => simp
  | false =>
    cases header : line.isHeader with
    | true => simp [always header]
    | false => simp

theorem lastMark_concat (lines : List BodyLine) (line : BodyLine) :
    lastMark (lines ++ [line])
      = (line.mark? (!lines.any BodyLine.isHeader)).getD (lastMark lines) := by
  unfold lastMark
  rw [marks_concat]
  cases line.mark? (!lines.any BodyLine.isHeader) with
  | none => simp
  | some mark => simp

theorem groups_concat :
    (.wall :: marks (lines ++ [line])).IsChain Mark.Linked ↔
      (.wall :: marks lines).IsChain Mark.Linked ∧
        ∀ mark, line.mark? (!lines.any BodyLine.isHeader) = some mark →
          (lastMark lines).Linked mark := by
  rw [marks_concat]
  cases line.mark? (!lines.any BodyLine.isHeader) with
  | none => simp
  | some mark =>
    rw [Option.toList_some, isChain_marks_concat]
    simp

theorem nodup_concat {α : Type} {earlier : List α} {last : α} :
    (earlier ++ [last]).Nodup ↔ earlier.Nodup ∧ last ∉ earlier := by
  rw [List.Nodup, pairwise_concat]
  refine and_congr_right fun _ => ?_
  exact ⟨fun each mem => each last mem rfl, fun new item mem same => new (same ▸ mem)⟩

theorem descriptions_concat :
    (descriptions (lines ++ [line])).Nodup ↔
      (descriptions lines).Nodup ∧
        ∀ header, line.header? = some header → header.description ≠ "" →
          header.description ∉ descriptions lines := by
  unfold descriptions
  rw [List.filterMap_append, List.map_append, List.filter_append]
  cases found : line.header? with
  | none => simp [found]
  | some header =>
    by_cases empty : header.description = ""
    · simp [found, empty]
    · have kept : ((([line].filterMap BodyLine.header?).map BranchHeader.description).filter
          (· != "")) = [header.description] := by
        simp [found, empty]
      rw [kept, nodup_concat]
      simp [empty]

theorem discriminators_concat :
    ((discriminators (lines ++ [line])).map upper).Nodup ↔
      ((discriminators lines).map upper).Nodup ∧
        ∀ header, line.header? = some header → ∀ bytes, header.discriminator = some bytes →
          upper bytes ∉ (discriminators lines).map upper := by
  unfold discriminators
  rw [List.filterMap_append, List.filterMap_append, List.map_append]
  cases found : line.header? with
  | none => simp [found]
  | some header =>
    cases told : header.discriminator with
    | none => simp [found, told]
    | some bytes =>
      have kept : (([line].filterMap BodyLine.header?).filterMap BranchHeader.discriminator).map
          upper = [upper bytes] := by
        simp [found, told]
      rw [kept, nodup_concat]
      simp [told]

/-- The branches that have a text are distinct if those before the last
one are, and if the last one differs from them. -/
theorem nodup_filledBranches :
    ((filledBranches lines).map WrittenBranch.text).Nodup ↔
      ((earlierBranches lines).map WrittenBranch.text).Nodup ∧ LastDiffers lines := by
  unfold filledBranches LastDiffers earlierBranches
  rcases List.eq_nil_or_concat (writtenBranches lines) with none | ⟨earlier, last, written⟩
  · simp [none]
  · rw [written, List.concat_eq_append, List.filter_append, List.dropLast_concat,
      List.getLast?_concat]
    by_cases blank : last.text = ""
    · simp [blank]
    · have kept : [last].filter (fun branch => branch.text != "") = [last] := by
        simp [blank]
      rw [kept, List.map_append, List.map_singleton, nodup_concat]
      simp [blank]

theorem texts_concat :
    ((earlierBranches (lines ++ [line])).map WrittenBranch.text).Nodup ↔
      ((earlierBranches lines).map WrittenBranch.text).Nodup ∧
        (line.isHeader = true → LastDiffers lines) := by
  cases header : line.isHeader with
  | true =>
    obtain ⟨opened, rfl⟩ : ∃ opened, line = .branch opened := by
      cases line with
      | branch opened => exact ⟨opened, rfl⟩
      | _ => cases header
    have same : earlierBranches (lines ++ [.branch opened]) = filledBranches lines := by
      rw [earlierBranches, writtenBranches_concat_header, List.dropLast_concat, filledBranches]
    rw [same, nodup_filledBranches]
    simp
  | false =>
    have same : earlierBranches (lines ++ [line]) = earlierBranches lines := by
      unfold earlierBranches
      rcases List.eq_nil_or_concat (writtenBranches lines) with none | ⟨earlier, last, written⟩
      · rw [none, writtenBranches_concat_of_nil header none]
      · rw [List.concat_eq_append] at written
        rw [writtenBranches_concat header written, written, List.dropLast_concat,
          List.dropLast_concat]
    simp [same]

end Concat

/-! ## All rules -/

variable {lines : List BodyLine} {line : BodyLine}

/-- What each rule asks of the next line. -/
theorem fits_iff (known : line ≠ .unrecognized) :
    Fits lines line ↔
      (line.isPlaceholder = true → hasPlaceholder lines = false ∧
        lines.any BodyLine.isHeader = false ∧ lines.any BodyLine.isPack = false) ∧
      (∀ mark, line.mark? (!lines.any BodyLine.isHeader) = some mark →
        (lastMark lines).Linked mark) ∧
      (line.isRepeat = true → Inside lines) ∧
      (∀ header, line.header? = some header → header.description ≠ "" →
        header.description ∉ descriptions lines) ∧
      (∀ header, line.header? = some header → ∀ bytes, header.discriminator = some bytes →
        upper bytes ∉ (discriminators lines).map upper) ∧
      (line.isHeader = true → LastDiffers lines) := by
  cases line with
  | field line => simp [Fits, BodyLine.isPlaceholder, BodyLine.mark?, BodyLine.isRepeat,
      BodyLine.header?, BodyLine.isHeader]
  | branch header =>
    simp [Fits, BodyLine.isPlaceholder, BodyLine.mark?, BodyLine.isRepeat, BodyLine.header?,
      BodyLine.isHeader, Mark.Linked]
  | unrecognized => exact absurd rfl known
  | control line =>
    cases line with
    | fragmentRef name => simp [Fits, BodyLine.isPlaceholder, BodyLine.mark?, BodyLine.isRepeat,
        BodyLine.header?, BodyLine.isHeader]
    | placeholder => simp [Fits, BodyLine.isPlaceholder, BodyLine.mark?, BodyLine.isRepeat,
        BodyLine.header?, BodyLine.isHeader]
    | repeatStart => simp [Fits, BodyLine.isPlaceholder, BodyLine.mark?, BodyLine.isRepeat,
        BodyLine.header?, BodyLine.isHeader, Mark.Linked]
    | repeatEnd => simp [Fits, BodyLine.isPlaceholder, BodyLine.mark?, BodyLine.isRepeat,
        BodyLine.header?, BodyLine.isHeader, Mark.Linked]
    | pack => simp [Fits, BodyLine.isPlaceholder, BodyLine.mark?, BodyLine.isRepeat,
        BodyLine.header?, BodyLine.isHeader, Mark.Linked]

/-- Lines that are admitted go on being so if the next line fits. -/
theorem admitted_concat (known : line ≠ .unrecognized) :
    Admitted (lines ++ [line]) ↔ Admitted lines ∧ Fits lines line := by
  rw [fits_iff known]
  constructor
  · rintro ⟨place, groups, packed, descriptions, discriminators, texts⟩
    obtain ⟨place, p⟩ := place_concat.mp place
    obtain ⟨groups, g⟩ := groups_concat.mp groups
    obtain ⟨packed, k⟩ := packed_concat.mp packed
    obtain ⟨descriptions, d⟩ := descriptions_concat.mp descriptions
    obtain ⟨discriminators, i⟩ := discriminators_concat.mp discriminators
    obtain ⟨texts, t⟩ := texts_concat.mp texts
    exact ⟨⟨place, groups, packed, descriptions, discriminators, texts⟩, p, g, k, d, i, t⟩
  · rintro ⟨⟨place, groups, packed, descriptions, discriminators, texts⟩, p, g, k, d, i, t⟩
    exact ⟨place_concat.mpr ⟨place, p⟩, groups_concat.mpr ⟨groups, g⟩,
      packed_concat.mpr ⟨packed, k⟩, descriptions_concat.mpr ⟨descriptions, d⟩,
      discriminators_concat.mpr ⟨discriminators, i⟩, texts_concat.mpr ⟨texts, t⟩⟩

theorem admitted_nil : Admitted [] where
  place := by simp
  groups := by simp [marks, parted]
  packed := by simp [opening]
  descriptions := by simp [Outline.descriptions]
  discriminators := by simp [Outline.discriminators]
  texts := by simp [earlierBranches, writtenBranches]

/-- Lines that are admitted are well-formed if they do not end in a group
and the last branch, if it is compared at all, differs from the
others. -/
theorem wellFormed_iff :
    WellFormed lines ↔
      Admitted lines ∧ lastMark lines ≠ .start ∧
        (hasPlaceholder lines = true → LastDiffers lines) := by
  have chain : (.wall :: (marks lines ++ [.wall])).IsChain Mark.Linked ↔
      (.wall :: marks lines).IsChain Mark.Linked ∧ lastMark lines ≠ .start := by
    rw [isChain_marks_concat]
    simp [Mark.Linked]
  have texts : ((comparedBranches lines).map WrittenBranch.text).Nodup ↔
      ((earlierBranches lines).map WrittenBranch.text).Nodup ∧
        (hasPlaceholder lines = true → LastDiffers lines) := by
    unfold comparedBranches
    cases placed : hasPlaceholder lines with
    | true => simp [nodup_filledBranches]
    | false => simp
  constructor
  · intro rules
    obtain ⟨groups, closed⟩ := chain.mp rules.groups
    obtain ⟨earlier, last⟩ := texts.mp rules.texts
    exact ⟨⟨rules.place, groups, rules.packed, rules.descriptions, rules.discriminators, earlier⟩,
      closed, last⟩
  · rintro ⟨rules, closed, last⟩
    exact ⟨rules.place, chain.mpr ⟨rules.groups, closed⟩, rules.packed, rules.descriptions,
      rules.discriminators, texts.mpr ⟨rules.texts, last⟩⟩

end PacketLayout
