/-
PacketLayout.Proofs.Packet.AcceptedSteps — when a step is accepted, and
what it makes.

Each way of taking a line in is refused under some conditions and
otherwise makes one assembly. For each of them there is one equivalence
that says both, so that nothing later has to look into a step again.

* `opened_eq_ok_iff`, `addPlaceholder_eq_ok_iff`, `startRepeat_eq_ok_iff`,
  `endRepeat_eq_ok_iff`, `pack_eq_ok_iff`: the lines that can be refused.
* `finished_eq_ok_iff`: the end of the packet.
* `foldlM_step_induction`: what every accepted step keeps holds of what
  has been collected of a packet.
-/
import Mathlib.Data.List.Induction
import PacketLayout.Proofs.Packet.Outline
import PacketLayout.Proofs.Packet.Steps

namespace PacketLayout

open Text

theorem Except.bind_eq_ok_iff {ε α β : Type} {x : Except ε α} {f : α → Except ε β} {b : β} :
    x.bind f = .ok b ↔ ∃ a, x = .ok a ∧ f a = .ok b := by
  cases x with
  | error failure => simp [Except.bind]
  | ok a => simp [Except.bind]

/-- A branch that has just been opened. -/
def Branch.begun (header : BranchHeader) (site : Site) : Branch :=
  ⟨header.description, site, header.lead.signature, header.lead.fields⟩

namespace Assembly

variable {made later : Assembly} {site : Site}

/-! ## Branches -/

/-- The assembly after the open branch has been closed. -/
def withClosed (made : Assembly) : Assembly :=
  { made with
    current := none
    branches := made.branches
      ++ made.current.toList.filter fun branch => !branch.signature.isBlank }

/-- The open branch is blank, or its text is new. -/
def Closable (made : Assembly) : Prop :=
  ∀ branch, made.current = some branch → branch.signature.isBlank = false →
    ∀ other ∈ made.branches, other.signature.render ≠ branch.signature.render

theorem withClosed_of_idle (idle : made.current = none) : made.withClosed = made := by
  unfold withClosed
  cases made
  cases idle
  simp only [Option.toList_none, List.filter_nil, List.append_nil]

theorem withClosed_of_blank {branch : Branch} (opened : made.current = some branch)
    (blank : branch.signature.isBlank = true) :
    made.withClosed = { made with current := none } := by
  have dropped : [branch].filter (fun branch => !branch.signature.isBlank) = [] := by
    simp [blank]
  rw [withClosed, opened, Option.toList_some, dropped, List.append_nil]

theorem withClosed_of_filled {branch : Branch} (opened : made.current = some branch)
    (filled : branch.signature.isBlank = false) :
    made.withClosed
      = { made with current := none, branches := made.branches ++ [branch] } := by
  have kept : [branch].filter (fun branch => !branch.signature.isBlank) = [branch] := by
    simp [filled]
  rw [withClosed, opened, Option.toList_some, kept]

/-- A branch that has a text can be closed if the text is new. -/
theorem closable_of_filled {branch : Branch} (opened : made.current = some branch)
    (filled : branch.signature.isBlank = false) :
    made.Closable ↔ (made.branches.any fun other =>
      other.signature.render == branch.signature.render) = false := by
  simp only [Closable, opened, Option.some.injEq, List.any_eq_false, beq_iff_eq]
  constructor
  · intro free other mem
    exact free branch rfl filled other mem
  · rintro free _ rfl _ other mem
    exact free other mem

theorem closed_eq_ok_iff :
    made.closed = .ok later ↔ made.Closable ∧ later = made.withClosed := by
  unfold closed
  cases opened : made.current with
  | none =>
    have closable : made.Closable := fun branch here => by
      rw [opened] at here
      cases here
    simp only [withClosed_of_idle opened, closable, true_and, Except.ok.injEq]
    exact eq_comm
  | some branch =>
    cases blank : branch.signature.isBlank with
    | true =>
      have closable : made.Closable := fun other here filled => by
        rw [opened] at here
        cases here
        rw [blank] at filled
        cases filled
      simp only [blank, if_true, withClosed_of_blank opened blank, closable, true_and,
        Except.ok.injEq]
      exact eq_comm
    | false =>
      rw [closable_of_filled opened blank, withClosed_of_filled opened blank]
      simp only [blank, Bool.false_eq_true, if_false]
      cases made.branches.any fun other =>
          other.signature.render == branch.signature.render with
      | true => simp only [if_true, reduceCtorEq, false_and]
      | false =>
        simp only [Bool.false_eq_true, if_false, true_and, Except.ok.injEq]
        exact eq_comm

/-- The assembly after a branch has been opened. -/
def withOpened (made : Assembly) (header : BranchHeader) (site : Site) : Assembly :=
  { made with
    descriptions := made.descriptions
      ++ if header.description.isEmpty then [] else [header.description]
    discriminators := made.discriminators ++ header.discriminator.toList
    current := some (.begun header site) }

theorem noteDescription_eq_ok_iff {description : String} :
    made.noteDescription description site = .ok later ↔
      (description ≠ "" → description ∉ made.descriptions) ∧
      later = { made with
        descriptions := made.descriptions
          ++ if description.isEmpty then [] else [description] } := by
  unfold noteDescription
  cases empty : description.isEmpty with
  | true =>
    obtain rfl : description = "" := String.isEmpty_iff.mp empty
    simp only [if_true, List.append_nil, Except.ok.injEq]
    exact ⟨fun same => ⟨fun some => absurd rfl some, same.symm⟩, fun h => h.2.symm⟩
  | false =>
    have some : description ≠ "" := by simpa using empty
    by_cases taken : description ∈ made.descriptions
    · simp [some, taken]
    · simp [some, taken, eq_comm]

theorem startBranch_eq_ok_iff {header : BranchHeader} :
    made.startBranch { description := header.description, site } header.discriminator = .ok later ↔
      (∀ bytes, header.discriminator = some bytes →
        upper bytes ∉ made.discriminators.map upper) ∧
      later = { made with
        discriminators := made.discriminators ++ header.discriminator.toList
        current := some (.begun header site) } := by
  unfold startBranch Branch.begun BranchHeader.lead
  cases header.discriminator with
  | none => simp [eq_comm]
  | some bytes =>
    have taken_iff : (made.discriminators.any fun other => equalIgnoringCase other bytes) = true
        ↔ upper bytes ∈ made.discriminators.map upper := by
      simp [equalIgnoringCase]
    dsimp only
    by_cases taken : upper bytes ∈ made.discriminators.map upper
    · rw [if_pos (taken_iff.mpr taken)]
      constructor
      · intro same
        cases same
      · rintro ⟨free, _⟩
        exact absurd taken (free bytes rfl)
    · rw [if_neg fun any => taken (taken_iff.mp any)]
      constructor
      · intro same
        cases same
        refine ⟨fun other here => ?_, rfl⟩
        cases here
        exact taken
      · rintro ⟨_, rfl⟩
        rfl

/-- A branch is opened outside repeated groups, if the open branch can be
closed and neither the description nor the discriminator is taken. -/
theorem opened_eq_ok_iff {header : BranchHeader} :
    made.opened header site = .ok later ↔
      (made.openRepeat = none ∧ made.Closable ∧
        (header.description ≠ "" → header.description ∉ made.descriptions) ∧
        ∀ bytes, header.discriminator = some bytes →
          upper bytes ∉ made.discriminators.map upper) ∧
      later = made.withClosed.withOpened header site := by
  unfold opened
  cases inside : made.openRepeat with
  | some opened => simp
  | none =>
    simp only [Except.bind_eq_ok_iff, closed_eq_ok_iff, noteDescription_eq_ok_iff,
      startBranch_eq_ok_iff]
    constructor
    · rintro ⟨closed, ⟨closable, rfl⟩, noted, ⟨described, rfl⟩, told, rfl⟩
      exact ⟨⟨trivial, closable, described, told⟩, rfl⟩
    · rintro ⟨⟨_, closable, described, told⟩, rfl⟩
      exact ⟨_, ⟨closable, rfl⟩, _, ⟨described, rfl⟩, told, rfl⟩

/-! ## Other lines -/

/-- The placeholder is accepted once, while the main body goes on. -/
theorem addPlaceholder_eq_ok_iff :
    made.addPlaceholder site = .ok later ↔
      (made.placeholder = none ∧ made.packed = false ∧ made.current = none) ∧
      later = { made with
        main := made.main ++ [.subCategory]
        placeholder := some site.line } := by
  unfold addPlaceholder
  cases seen : made.placeholder with
  | some line => simp
  | none =>
    cases packed : made.packed with
    | true => simp
    | false =>
      cases opened : made.current with
      | some branch => simp
      | none => simp [eq_comm]

/-- The main body is not ended inside a repeated group; in a branch that
does not matter. -/
theorem pack_eq_ok_iff :
    made.pack = .ok later ↔
      (made.current = none → made.openRepeat = none) ∧ later = { made with packed := true } := by
  unfold pack
  cases opened : made.current with
  | some branch => simp [eq_comm]
  | none =>
    cases inside : made.openRepeat with
    | some site => simp
    | none => simp [eq_comm]

/-- A repeated group starts where none is open. -/
theorem startRepeat_eq_ok_iff :
    made.startRepeat site = .ok later ↔
      (made.openRepeat = none ∧ made.outside = false) ∧
      later = { made.add .repeatStart .placeholder with openRepeat := some site } := by
  unfold startRepeat
  cases inside : made.openRepeat with
  | some opened => simp
  | none =>
    cases out : made.outside with
    | true => simp
    | false => simp [eq_comm]

/-- A repeated group ends where one is open. -/
theorem endRepeat_eq_ok_iff :
    made.endRepeat site = .ok later ↔
      (made.openRepeat.isSome = true ∧ made.outside = false) ∧
      later = { made.add .repeatEnd .placeholder with openRepeat := none } := by
  unfold endRepeat
  cases inside : made.openRepeat with
  | none => simp
  | some opened =>
    cases out : made.outside with
    | true => simp
    | false => simp [eq_comm]

/-! ## The whole packet -/

/-- The packet ends outside repeated groups. The last branch counts only
if there is a place for it. -/
theorem finished_eq_ok_iff {set : SignatureSet} :
    made.finished = .ok set ↔
      made.openRepeat = none ∧
        ((made.placeholder = none ∧ set = made.mainEntry) ∨
          (made.placeholder.isSome = true ∧ made.Closable ∧
            set = made.withClosed.branchEntries)) := by
  unfold finished
  cases inside : made.openRepeat with
  | some opened => simp
  | none =>
    cases seen : made.placeholder with
    | none => simp [eq_comm]
    | some line =>
      cases closing : made.closed with
      | ok closed =>
        obtain ⟨closable, rfl⟩ := closed_eq_ok_iff.mp closing
        simp [Except.map, closable, eq_comm]
      | error failure =>
        have stuck : ¬ made.Closable := by
          intro closable
          rw [closed_eq_ok_iff.mpr ⟨closable, rfl⟩] at closing
          cases closing
        simp [Except.map, stuck]

/-- What holds at the start and is kept by every accepted step holds of
what has been collected of a packet. -/
theorem foldlM_step_induction {expand : String → Site → Except Failure Expansion}
    {motive : List Site → Assembly → Prop} (start : motive [] {})
    (keeps : ∀ done site made later, motive done made → made.step expand site = .ok later →
      motive (done ++ [site]) later)
    {lines : List Site} {made : Assembly} (h : lines.foldlM (step expand) {} = .ok made) :
    motive lines made := by
  induction lines using List.reverseRecOn generalizing made with
  | nil =>
    cases h
    exact start
  | append_singleton done site ih =>
    rw [List.foldlM_append] at h
    obtain ⟨middle, first, last⟩ := Except.bind_eq_ok_iff.mp h
    refine keeps done site middle made (ih first) ?_
    simpa using last

end Assembly

end PacketLayout
