/-
PacketLayout.Proofs.Warnings.Expected — the warnings that declarations
call for.

What a layout has to be warned of can be read off its declarations. A
field line gives the warnings of its qualifiers. A packet gives more of
them for its branches: a branch without a text is told of when the packet
goes on behind it, or at the end if there is a place for it, and a packet
whose branches have no place, or whose place has no branch, is told of
too.

None of this depends on where a line stands in the source or on what a
reference names. So the number of warnings is that of the lines without
the references, in any order of the declarations.

* `Fragment.warnings`, `Packet.warnings`: the warnings of a declaration.
* `sitedBranches_concat_header`, `dropLast_sitedBranches_concat`: one more
  line opens a branch, or changes none but the last.
* `Fragment.length_warnings`, `Packet.length_warnings`: the number of
  warnings, read off the texts of the lines that are no references.
-/
import PacketLayout.Proofs.Expansion.References
import PacketLayout.Proofs.Packet.Following

namespace PacketLayout

open Outline

/-! ## Lines -/

/-- The remarks that reading a line gives, if it is a field line. -/
def Site.remarks (site : Site) : List Remark :=
  match FieldLine.read site.raw.toList with
  | .ok (some line) => line.remarks
  | _ => []

/-- The warnings that a line gives, at its number. -/
def Site.warnings (site : Site) : List Diagnostic :=
  site.remarks.map fun remark => ⟨site.line, .warning remark.warning, some remark.about⟩

/-- Only a field line gives remarks. -/
theorem Site.remarks_form (site : Site) : site.form.remarks = site.remarks := by
  unfold Site.form Site.remarks BodyLine.read
  cases FieldLine.read site.raw.toList with
  | error cause => rfl
  | ok line =>
    cases line with
    | some line => rfl
    | none =>
      dsimp only
      split
      · rename_i line read
        split at read
        · cases header : BranchHeader.read site.raw.toList with
          | error cause =>
            rw [header] at read
            cases read
          | ok header =>
            rw [header] at read
            cases read
            rfl
        · split at read
          · cases read
            rfl
          · cases read
            rfl
      · rfl

/-! ## Declarations -/

/-- The warnings that a fragment calls for. -/
def Fragment.warnings (fragment : Fragment) : List Diagnostic :=
  fragment.body.lines.flatMap Site.warnings

namespace Outline

/-- The lines that open the branches. -/
def headerSites (lines : List Site) : List Site :=
  lines.filter fun site => site.form.isHeader

/-- The branches, each next to the line that opens it. -/
def sitedBranches (lines : List Site) : List (Site × WrittenBranch) :=
  (headerSites lines).zip (writtenBranches (lines.map Site.form))

/-- The warnings for those of the branches that have no text. -/
def blankWarnings (branches : List (Site × WrittenBranch)) : List Diagnostic :=
  (branches.filter fun branch => branch.2.text == "").map fun branch =>
    ⟨branch.1.line, .warning .blankBranch, some branch.1.raw⟩

/-- The warnings for the branches of a packet. If there is a place for
them, each blank branch is told of, and so is a place without a branch that
has a text. If there is none, the last branch is told of, as one that has
no place, and each blank branch before it. -/
def branchWarnings (lines : List Site) : List Diagnostic :=
  match lines.find? fun site => site.form.isPlaceholder with
  | some place =>
    blankWarnings (sitedBranches lines)
      ++ if (filledBranches (lines.map Site.form)).isEmpty then
        [⟨place.line, .warning .noBranchBody, none⟩] else []
  | none =>
    blankWarnings (sitedBranches lines).dropLast
      ++ (headerSites lines).getLast?.toList.map fun last =>
        ⟨last.line, .warning .branchesIgnored, some last.raw⟩

end Outline

/-- The warnings that a packet calls for. -/
def Packet.warnings (packet : Packet) : List Diagnostic :=
  packet.body.lines.flatMap Site.warnings ++ branchWarnings packet.body.lines

/-- The warnings that all declarations call for. -/
def Declarations.warnings (declared : Declarations) : List Diagnostic :=
  declared.fragments.values.flatMap Fragment.warnings
    ++ declared.packets.values.flatMap Packet.warnings

/-! ## One more line -/

namespace Outline

variable {lines : List Site} {site : Site}

theorem length_writtenBranches (lines : List BodyLine) :
    (writtenBranches lines).length = (lines.filter BodyLine.isHeader).length := by
  induction lines with
  | nil => rfl
  | cons first rest ih =>
    cases first with
    | branch header =>
      rw [writtenBranches, List.filter_cons_of_pos rfl, List.length_cons, List.length_cons, ih]
    | field line => exact ih
    | control line => exact ih
    | unrecognized => exact ih

theorem length_headerSites (lines : List Site) :
    (headerSites lines).length = (writtenBranches (lines.map Site.form)).length := by
  rw [length_writtenBranches, List.filter_map, List.length_map]
  rfl

theorem blankWarnings_append (first second : List (Site × WrittenBranch)) :
    blankWarnings (first ++ second) = blankWarnings first ++ blankWarnings second := by
  simp [blankWarnings]

/-- A header stands behind all branches that were written before it. -/
theorem sitedBranches_concat_header {header : BranchHeader} (form : site.form = .branch header) :
    sitedBranches (lines ++ [site]) = sitedBranches lines ++ [(site, ⟨header, []⟩)] := by
  have last : headerSites (lines ++ [site]) = headerSites lines ++ [site] := by
    simp [headerSites, form, BodyLine.isHeader]
  rw [sitedBranches, last, List.map_append, List.map_singleton, form,
    writtenBranches_concat_header, List.zip_append (length_headerSites lines)]
  rfl

/-- Where there is a last branch, there is a last header. -/
theorem exists_headerSites_concat {earlier : List WrittenBranch} {last : WrittenBranch}
    (written : writtenBranches (lines.map Site.form) = earlier ++ [last]) :
    ∃ front header, headerSites lines = front ++ [header] ∧ front.length = earlier.length := by
  have counted := length_headerSites lines
  rw [written, List.length_append] at counted
  rcases List.eq_nil_or_concat (headerSites lines) with empty | ⟨front, header, split⟩
  · rw [empty] at counted
    simp at counted
  · refine ⟨front, header, split.trans List.concat_eq_append, ?_⟩
    rw [split] at counted
    simpa using counted

/-- Any other line changes none of the branches before the last one. -/
theorem dropLast_sitedBranches_concat (body : site.form.isHeader = false) :
    (sitedBranches (lines ++ [site])).dropLast = (sitedBranches lines).dropLast := by
  have same : headerSites (lines ++ [site]) = headerSites lines := by
    simp [headerSites, body]
  rw [sitedBranches, sitedBranches, same, List.map_append, List.map_singleton]
  rcases List.eq_nil_or_concat (writtenBranches (lines.map Site.form)) with
    none | ⟨earlier, last, written⟩
  · rw [writtenBranches_concat_of_nil body none, none]
  · rw [List.concat_eq_append] at written
    obtain ⟨front, header, split, fits⟩ := exists_headerSites_concat written
    rw [writtenBranches_concat body written, written, split, List.zip_append fits,
      List.zip_append fits]
    simp

end Outline

/-! ## The number of warnings -/

/-- The line is no reference. -/
def BodyLine.isOwn (line : BodyLine) : Bool :=
  line.reference?.isNone

/-- A reference is written in one way. -/
theorem BodyLine.eq_of_not_isOwn {line : BodyLine} (ref : line.isOwn = false) :
    ∃ name, line = .control (.fragmentRef name) := by
  obtain ⟨name, named⟩ := Option.isSome_iff_exists.mp (by simpa [isOwn] using ref)
  exact ⟨name, BodyLine.eq_of_reference named⟩

/-- The texts of the lines that are no references. -/
def Body.ownTexts (body : Body) : List String :=
  (body.lines.filter fun site => site.form.isOwn).map Site.raw

namespace Outline

/-- The texts of the branches. -/
def branchTexts (lines : List BodyLine) : List String :=
  (writtenBranches lines).map WrittenBranch.text

/-- The number of warnings for branches with these texts. -/
def branchWarningCount (placed : Bool) (texts : List String) : Nat :=
  if placed then texts.count "" + if texts.all (· == "") then 1 else 0
  else texts.dropLast.count "" + if texts.isEmpty then 0 else 1

theorem map_text_sitedBranches (lines : List Site) :
    (sitedBranches lines).map (fun branch => branch.2.text)
      = branchTexts (lines.map Site.form) := by
  rw [branchTexts, ← List.map_snd_zip (length_headerSites lines).ge, List.map_map]
  rfl

theorem length_blankWarnings (branches : List (Site × WrittenBranch)) :
    (blankWarnings branches).length
      = (branches.map fun branch => branch.2.text).count "" := by
  rw [blankWarnings, List.length_map, ← List.countP_eq_length_filter, List.count,
    List.countP_map]
  rfl

theorem length_branchWarnings (lines : List Site) :
    (branchWarnings lines).length
      = branchWarningCount (hasPlaceholder (lines.map Site.form))
          (branchTexts (lines.map Site.form)) := by
  have placed : hasPlaceholder (lines.map Site.form)
      = (lines.find? fun site => site.form.isPlaceholder).isSome := by
    rw [hasPlaceholder, List.any_map, List.isSome_find?]
    rfl
  rw [placed, branchWarnings]
  cases lines.find? fun site => site.form.isPlaceholder with
  | some place =>
    have filled : (filledBranches (lines.map Site.form)).isEmpty
        = (branchTexts (lines.map Site.form)).all (· == "") := by
      rw [Bool.eq_iff_iff]
      simp [filledBranches, branchTexts]
    simp only [List.length_append, length_blankWarnings, map_text_sitedBranches, filled,
      branchWarningCount, Option.isSome_some, if_true]
    congr 1
    split <;> rfl
  | none =>
    have last : (headerSites lines).getLast?.toList.length
        = if (branchTexts (lines.map Site.form)).isEmpty then 0 else 1 := by
      have counted := length_headerSites lines
      rcases List.eq_nil_or_concat (headerSites lines) with empty | ⟨front, back, split⟩
      · rw [empty] at counted ⊢
        have none := List.eq_nil_of_length_eq_zero counted.symm
        simp [branchTexts, none]
      · rw [split] at counted ⊢
        have some : writtenBranches (lines.map Site.form) ≠ [] := by
          intro none
          rw [none] at counted
          simp at counted
        simp [branchTexts, some]
    simp only [List.length_append, length_blankWarnings, List.map_dropLast,
      map_text_sitedBranches, List.length_map, last, branchWarningCount, Option.isSome_none,
      Bool.false_eq_true, if_false]

/-! ### Without references -/

theorem opening_own (lines : List BodyLine) :
    opening (lines.filter BodyLine.isOwn) = (opening lines).filter BodyLine.isOwn := by
  unfold opening
  induction lines with
  | nil => rfl
  | cons first rest ih =>
    cases own : first.isOwn with
    | false =>
      obtain ⟨name, rfl⟩ := BodyLine.eq_of_not_isOwn own
      exact ih
    | true =>
      cases header : first.isHeader with
      | true => simp [own, header]
      | false => simp [own, header, ih]

/-- A reference adds nothing to a branch. -/
theorem concat_own (lines : List BodyLine) :
    Expansion.concat ((lines.filter BodyLine.isOwn).map BodyLine.own)
      = .concat (lines.map BodyLine.own) := by
  induction lines with
  | nil => rfl
  | cons first rest ih =>
    simp only [Expansion.concat, Expansion.mk.injEq] at ih ⊢
    cases own : first.isOwn with
    | false =>
      obtain ⟨name, rfl⟩ := BodyLine.eq_of_not_isOwn own
      exact ih
    | true => simp [own, ih]

theorem branchTexts_own (lines : List BodyLine) :
    branchTexts (lines.filter BodyLine.isOwn) = branchTexts lines := by
  unfold branchTexts
  induction lines with
  | nil => rfl
  | cons first rest ih =>
    cases first with
    | branch header =>
      have same : WrittenBranch.text ⟨header, opening (rest.filter BodyLine.isOwn)⟩
          = WrittenBranch.text ⟨header, opening rest⟩ := by
        simp only [WrittenBranch.text, WrittenBranch.content, opening_own, concat_own]
      rw [List.filter_cons_of_pos rfl, writtenBranches, writtenBranches, List.map_cons,
        List.map_cons, ih, same]
    | field line => exact ih
    | unrecognized => exact ih
    | control line =>
      cases line with
      | fragmentRef name => exact ih
      | _ => exact ih

theorem hasPlaceholder_own (lines : List BodyLine) :
    hasPlaceholder (lines.filter BodyLine.isOwn) = hasPlaceholder lines := by
  rw [hasPlaceholder, hasPlaceholder, List.any_filter]
  congr 1
  funext line
  cases line with
  | control line => cases line <;> rfl
  | _ => rfl

end Outline

/-- The number of warnings of field lines with these texts. -/
def lineWarningCount (texts : List String) : Nat :=
  (texts.flatMap fun text => Site.remarks ⟨0, text⟩).length

/-- The number of warnings of a packet whose lines have these texts. -/
def packetWarningCount (texts : List String) : Nat :=
  lineWarningCount texts
    + branchWarningCount (hasPlaceholder (texts.map fun text => Site.form ⟨0, text⟩))
        (branchTexts (texts.map fun text => Site.form ⟨0, text⟩))

theorem Body.length_lineWarnings (body : Body) :
    (body.lines.flatMap Site.warnings).length = lineWarningCount body.ownTexts := by
  unfold lineWarningCount ownTexts
  induction body.lines with
  | nil => rfl
  | cons site rest ih =>
    have here : site.warnings.length = site.remarks.length := List.length_map _
    cases own : site.form.isOwn with
    | true => simp [own, here, ih, Site.remarks]
    | false =>
      obtain ⟨name, form⟩ := BodyLine.eq_of_not_isOwn own
      have none : site.remarks = [] := by rw [← Site.remarks_form, form]; rfl
      simpa [own, here, none] using ih

/-- The number of warnings of a fragment depends on the texts of its own
lines alone. -/
theorem Fragment.length_warnings (fragment : Fragment) :
    fragment.warnings.length = lineWarningCount fragment.body.ownTexts :=
  fragment.body.length_lineWarnings

/-- The number of warnings of a packet depends on the texts of its own
lines alone. -/
theorem Packet.length_warnings (packet : Packet) :
    packet.warnings.length = packetWarningCount packet.body.ownTexts := by
  have forms : (packet.body.ownTexts.map fun text => Site.form ⟨0, text⟩)
      = (packet.body.lines.map Site.form).filter BodyLine.isOwn := by
    rw [Body.ownTexts, List.map_map, List.filter_map]
    rfl
  rw [warnings, List.length_append, packet.body.length_lineWarnings, length_branchWarnings,
    packetWarningCount, forms, hasPlaceholder_own, branchTexts_own]

end PacketLayout
