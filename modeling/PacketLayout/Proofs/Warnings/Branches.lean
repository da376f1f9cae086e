/-
PacketLayout.Proofs.Warnings.Branches — the warnings that the work on a
packet gives for its branches.

A branch is looked at when the next one is opened, or at the end. By then
the open branch is the last one written, and it is known by the line of its
header. So after any number of lines those branches have been told of that
are blank and stand before the last one, and the end adds what is missing.

* `Sited`, `sited_of_foldlM`: the lines that the assembly remembers.
* `blankWarnings_concat`: what one more line adds to the warnings.
* `branchWarnings_eq`: what the end adds.
-/
import PacketLayout.Proofs.Warnings.Expected

namespace PacketLayout.Assembly

open Outline

variable {expand : String → Site → Except Failure Expansion} {flat : String → Expansion}
  {done : List Site} {site : Site} {made later : Assembly}

/-! ## What the work gives -/

/-- The warning that closing the open branch gives, if it is blank. -/
def closingWarnings (made : Assembly) : List Diagnostic :=
  (made.current.toList.filter fun branch => branch.signature.isBlank).map fun branch =>
    ⟨branch.site.line, .warning .blankBranch, some branch.site.raw⟩

/-- The warnings that a line gives for the branches before it. -/
def openingWarnings (made : Assembly) (site : Site) : List Diagnostic :=
  if site.form.isHeader then made.closingWarnings else []

/-- The warnings that the end of the packet gives. -/
def endingWarnings (made : Assembly) : List Diagnostic :=
  match made.placeholder with
  | some line =>
    made.closingWarnings
      ++ if made.withClosed.branches.isEmpty then [⟨line, .warning .noBranchBody, none⟩] else []
  | none =>
    made.current.toList.map fun branch =>
      ⟨branch.site.line, .warning .branchesIgnored, some branch.site.raw⟩

/-! ## The lines that are remembered -/

/-- The open branch remembers the last header, and the placeholder its
line. -/
structure Sited (done : List Site) (made : Assembly) : Prop where
  current : made.current.map Branch.site = (headerSites done).getLast?
  placeholder : made.placeholder
    = (done.find? fun site => site.form.isPlaceholder).map Site.line

namespace Sited

theorem start : Sited [] {} :=
  ⟨rfl, rfl⟩

/-- A line that is neither a header nor a placeholder. -/
theorem other (sited : Sited done made) (header : site.form.isHeader = false)
    (place : site.form.isPlaceholder = false)
    (current : later.current.map Branch.site = made.current.map Branch.site)
    (placeholder : later.placeholder = made.placeholder) : Sited (done ++ [site]) later where
  current := by rw [current, sited.current]; simp [headerSites, header]
  placeholder := by rw [placeholder, sited.placeholder]; simp [List.find?_append, place]

theorem add (sited : Sited done made) (header : site.form.isHeader = false)
    (place : site.form.isPlaceholder = false) (token : Token) (field : Field) :
    Sited (done ++ [site]) (made.add token field) := by
  have same : (made.add token field).current.map Branch.site = made.current.map Branch.site ∧
      (made.add token field).placeholder = made.placeholder := by
    unfold Assembly.add
    cases opened : made.current with
    | some branch => exact ⟨rfl, rfl⟩
    | none => cases made.placeholder.isSome <;> simp
  exact sited.other header place same.1 same.2

theorem header (sited : Sited done made) {header : BranchHeader}
    (form : site.form = .branch header) :
    Sited (done ++ [site]) (made.withClosed.withOpened header site) where
  current := by simp [Assembly.withOpened, Branch.begun, headerSites, form, BodyLine.isHeader]
  placeholder := by
    simpa [Assembly.withOpened, withClosed, List.find?_append, form, BodyLine.isPlaceholder]
      using sited.placeholder

theorem place (sited : Sited done made) (form : site.form = .control .placeholder)
    (unseen : made.placeholder = none) :
    Sited (done ++ [site])
      { made with main := made.main ++ [.subCategory], placeholder := some site.line } where
  current := by
    rw [sited.current]
    simp [headerSites, form, BodyLine.isHeader]
  placeholder := by
    have before := sited.placeholder
    rw [unseen] at before
    have absent := Option.map_eq_none_iff.mp before.symm
    rw [List.find?_append, absent, Option.none_or, List.find?_cons_of_pos (by rw [form]; rfl)]
    rfl

/-- Every line that is accepted keeps the remembered lines right. -/
theorem take (sited : Sited done made) {part : Expansion}
    (taken : made.take site part site.form = .ok later) : Sited (done ++ [site]) later := by
  cases form : site.form with
  | field line =>
    rw [form] at taken
    cases taken
    exact sited.add (by rw [form]; rfl) (by rw [form]; rfl) _ _
  | branch header =>
    rw [form] at taken
    obtain ⟨_, rfl⟩ := opened_eq_ok_iff.mp taken
    exact sited.header form
  | unrecognized =>
    rw [form] at taken
    cases taken
  | control line =>
    rw [form] at taken
    cases line with
    | fragmentRef name =>
      cases taken
      exact sited.other (by rw [form]; rfl) (by rw [form]; rfl) rfl rfl
    | placeholder =>
      obtain ⟨⟨unseen, _⟩, rfl⟩ := addPlaceholder_eq_ok_iff.mp taken
      exact sited.place form unseen
    | repeatStart =>
      obtain ⟨_, rfl⟩ := startRepeat_eq_ok_iff.mp taken
      have added : Sited (done ++ [site]) (made.add .repeatStart .placeholder) :=
        sited.add (by rw [form]; rfl) (by rw [form]; rfl) _ _
      exact ⟨added.current, added.placeholder⟩
    | repeatEnd =>
      obtain ⟨_, rfl⟩ := endRepeat_eq_ok_iff.mp taken
      have added : Sited (done ++ [site]) (made.add .repeatEnd .placeholder) :=
        sited.add (by rw [form]; rfl) (by rw [form]; rfl) _ _
      exact ⟨added.current, added.placeholder⟩
    | pack =>
      obtain ⟨_, rfl⟩ := pack_eq_ok_iff.mp taken
      exact sited.other (by rw [form]; rfl) (by rw [form]; rfl) rfl rfl

end Sited

theorem sited_of_foldlM (h : done.foldlM (step expand) {} = .ok made) : Sited done made := by
  refine foldlM_step_induction (motive := Sited) .start ?_ h
  intro done site made later sited accepted
  obtain ⟨part, _, taken⟩ := step_eq_ok_iff.mp accepted
  exact sited.take taken

/-! ## What the lines call for -/

/-- The last branch is told of when it is closed, the others have been
before. -/
theorem blankWarnings_closed (sited : Sited done made)
    (follows : BranchesFollow (done.map Site.form) made.branches made.current) :
    blankWarnings (sitedBranches done)
      = blankWarnings (sitedBranches done).dropLast ++ made.closingWarnings := by
  cases opened : made.current with
  | none =>
    have unwritten := (follows.idle opened).1
    simp [sitedBranches, unwritten, closingWarnings, opened, blankWarnings]
  | some branch =>
    obtain ⟨earlier, last, written, same, _⟩ := follows.busy branch opened
    obtain ⟨front, header, split, fits⟩ := exists_headerSites_concat written
    have here : header = branch.site := by
      have remembered := sited.current
      rw [opened, split] at remembered
      simpa using remembered.symm
    have blank : (last.text == "") = branch.signature.isBlank := by
      have filled := Signature.render_bne_empty branch.signature
      rw [← WrittenBranch.text_eq same, bne] at filled
      exact Bool.not_inj filled
    have all : sitedBranches done = front.zip earlier ++ [(branch.site, last)] := by
      rw [sitedBranches, written, split, here, List.zip_append fits]
      rfl
    rw [all, List.dropLast_concat, blankWarnings_append, closingWarnings, opened]
    congr 1
    cases told : branch.signature.isBlank <;> simp [blankWarnings, blank, told]

/-- One more line tells of the branch before it, if it is a header and the
branch is blank. -/
theorem blankWarnings_concat (sited : Sited done made)
    (follows : BranchesFollow (done.map Site.form) made.branches made.current) (site : Site) :
    blankWarnings (sitedBranches (done ++ [site])).dropLast
      = blankWarnings (sitedBranches done).dropLast ++ made.openingWarnings site := by
  unfold openingWarnings
  cases form : site.form with
  | branch header =>
    rw [sitedBranches_concat_header form, List.dropLast_concat, blankWarnings_closed sited follows]
    rfl
  | field line =>
    rw [dropLast_sitedBranches_concat (by rw [form]; rfl)]
    exact (List.append_nil _).symm
  | control line =>
    rw [dropLast_sitedBranches_concat (by rw [form]; rfl)]
    exact (List.append_nil _).symm
  | unrecognized =>
    rw [dropLast_sitedBranches_concat (by rw [form]; rfl)]
    exact (List.append_nil _).symm

/-- The end of the packet adds what is missing of the warnings for its
branches. -/
theorem branchWarnings_eq (sited : Sited done made)
    (follows : BranchesFollow (done.map Site.form) made.branches made.current) :
    branchWarnings done
      = blankWarnings (sitedBranches done).dropLast ++ made.endingWarnings := by
  have placed := sited.placeholder
  unfold branchWarnings endingWarnings
  cases found : done.find? fun site => site.form.isPlaceholder with
  | some place =>
    rw [found] at placed
    have filled : (filledBranches (done.map Site.form)).isEmpty
        = made.withClosed.branches.isEmpty := by
      have same := congrArg List.isEmpty follows.closed
      rw [List.isEmpty_map, List.isEmpty_map] at same
      exact same.symm
    rw [placed, Option.map_some, blankWarnings_closed sited follows, filled]
    exact List.append_assoc ..
  | none =>
    rw [found] at placed
    rw [placed, Option.map_none, ← sited.current]
    cases made.current <;> rfl

end PacketLayout.Assembly
