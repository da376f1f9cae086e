/-
PacketLayout.Proofs.Packet.IgnoredBranches — branches that nothing is
made of.

A packet without a placeholder has no place for its branches, and what is
written in them is left out: their fields, their repeated groups and their
discriminators. But a reference to a fragment goes to the main body even
from within a branch. So the packet is the one that is left when all lines
from the first branch on are taken away, but for the references.

The two packets are read side by side. Up to the first branch they have
the same lines. From there on `Beside` holds: the shorter one has
collected the same main body, while the longer one has a branch open, and
each line either goes to that branch or is a reference that both have.

* `Beside.start`: the first header begins it.
* `Beside.take`: every accepted line keeps this up.
* `Assembly.assembled_unbranched`: so both come to the same signatures.
* `Workspace.compilePacket_unbranched`: what is compiled is the packet
  without its branches.
-/
import PacketLayout.Proofs.Expansion.References
import PacketLayout.Proofs.Packet.SinglePass

namespace PacketLayout

open Outline Text

/-! ## Lines outside the branches -/

namespace Site

def opensBranch (site : Site) : Bool :=
  site.form.isHeader

def isReference (site : Site) : Bool :=
  site.form.reference?.isSome

end Site

namespace Body

variable (body : Body)

/-- Some of the lines of a body, in their order. -/
def restrict {body : Body} {lines : List Site} (sublist : lines.Sublist body.lines) : Body :=
  ⟨lines, body.ascending.sublist sublist⟩

/-- The lines before the first branch. -/
def beforeBranches : List Site :=
  body.lines.takeWhile fun site => !site.opensBranch

/-- The lines from the first branch on. -/
def inBranches : List Site :=
  body.lines.dropWhile fun site => !site.opensBranch

/-- The body up to its first branch. -/
def truncated : Body :=
  restrict (List.takeWhile_sublist (l := body.lines) fun site => !site.opensBranch)

theorem unbranched_sublist :
    (body.beforeBranches ++ body.inBranches.filter Site.isReference).Sublist body.lines := by
  conv_rhs => rw [← List.takeWhile_append_dropWhile (p := fun site => !site.opensBranch)
    (l := body.lines)]
  exact (List.Sublist.refl _).append List.filter_sublist

/-- The body without the lines from its first branch on, but with the
references among them. -/
def unbranched : Body :=
  restrict body.unbranched_sublist

/-- The lines in the branches begin with a header. -/
theorem header_of_inBranches {site : Site} {rest : List Site}
    (branches : body.inBranches = site :: rest) : ∃ header, site.form = .branch header := by
  have first := List.head?_dropWhile_not (fun site => !site.opensBranch) body.lines
  rw [show body.lines.dropWhile (fun site => !site.opensBranch) = site :: rest from branches]
    at first
  have headed : site.form.isHeader = true := by simpa [Site.opensBranch] using first
  cases form : site.form with
  | branch header => exact ⟨header, rfl⟩
  | _ => simp [form, BodyLine.isHeader] at headed

/-- Where the branches have no reference, nothing of them is left. -/
theorem unbranched_eq_truncated (none : ∀ site ∈ body.inBranches, site.isReference = false) :
    body.unbranched = body.truncated := by
  have empty : body.inBranches.filter Site.isReference = [] :=
    List.filter_eq_nil_iff.mpr (by simpa using none)
  simp [unbranched, truncated, restrict, beforeBranches, empty]

end Body

/-! ## Side by side -/

namespace Assembly

variable {made other later : Assembly} {site : Site} {part : Expansion}

/-- What both collect is the same, but the first has a branch open, and
the other has none. There is no place for branches. -/
structure Beside (made other : Assembly) : Prop where
  main : made.main = other.main
  before : made.before = other.before
  unplaced : made.placeholder = none
  opened : made.current.isSome = true
  unplaced' : other.placeholder = none
  idle : other.openRepeat = none

namespace Beside

/-- The first header is accepted: it opens a branch, behind lines without
a placeholder. -/
theorem start {expand : String → Site → Except Failure Expansion} {flat : String → Expansion}
    (flattens : ∀ name site found, expand name site = .ok found → found = flat name)
    {lines : List Site} (unplaced : hasPlaceholder (lines.map Site.form) = false)
    (opening : lines.foldlM (step expand) {} = .ok made) {header : BranchHeader}
    (taken : made.take site part (.branch header) = .ok later) : Beside later made := by
  -- a header is accepted outside of repeated groups only
  obtain ⟨⟨idle, _⟩, rfl⟩ := opened_eq_ok_iff.mp taken
  have seen := (follows_of_foldlM flattens opening).placeholder
  rw [unplaced] at seen
  have free : made.placeholder = none := by simpa using seen
  exact ⟨rfl, rfl, free, rfl, free, idle⟩

/-- What a line adds by itself goes to the open branch. -/
theorem add (beside : Beside made other) (token : Token) (field : Field) :
    Beside (made.add token field) other := by
  obtain ⟨branch, opened⟩ := Option.isSome_iff_exists.mp beside.opened
  unfold Assembly.add
  rw [opened]
  exact ⟨beside.main, beside.before, beside.unplaced, rfl, beside.unplaced', beside.idle⟩

/-- A reference goes to the main body of both. -/
theorem splice (beside : Beside made other) (part : Expansion) :
    Beside (made.splice part) (other.splice part) := by
  obtain ⟨main, before, unplaced, opened, unplaced', idle⟩ := beside
  exact ⟨by simp [Assembly.splice, main], by simp [Assembly.splice, before], unplaced, opened,
    unplaced', idle⟩

/-- A line that is accepted in a branch, and is no reference, leaves the
other as it is. -/
theorem take (beside : Beside made other) {line : BodyLine} (own : line.reference? = none)
    (taken : made.take site part line = .ok later) : Beside later other := by
  cases line with
  | field line =>
    cases taken
    exact beside.add _ _
  | branch header =>
    obtain ⟨_, rfl⟩ := opened_eq_ok_iff.mp taken
    exact ⟨beside.main, beside.before, beside.unplaced, rfl, beside.unplaced', beside.idle⟩
  | unrecognized => cases taken
  | control line =>
    cases line with
    | fragmentRef name => cases own
    | placeholder =>
      -- no placeholder is accepted while a branch is open
      obtain ⟨⟨_, _, closed⟩, _⟩ := addPlaceholder_eq_ok_iff.mp taken
      have opened := beside.opened
      rw [closed] at opened
      cases opened
    | repeatStart =>
      obtain ⟨_, rfl⟩ := startRepeat_eq_ok_iff.mp taken
      obtain ⟨main, before, unplaced, opened, unplaced', idle⟩ :=
        beside.add .repeatStart .placeholder
      exact ⟨main, before, unplaced, opened, unplaced', idle⟩
    | repeatEnd =>
      obtain ⟨_, rfl⟩ := endRepeat_eq_ok_iff.mp taken
      obtain ⟨main, before, unplaced, opened, unplaced', idle⟩ :=
        beside.add .repeatEnd .placeholder
      exact ⟨main, before, unplaced, opened, unplaced', idle⟩
    | pack =>
      obtain ⟨_, rfl⟩ := pack_eq_ok_iff.mp taken
      exact ⟨beside.main, beside.before, beside.unplaced, beside.opened, beside.unplaced',
        beside.idle⟩

/-- Both come to the same signatures. -/
theorem finished (beside : Beside made other) {set : SignatureSet}
    (h : made.finished = .ok set) : other.finished = .ok set := by
  obtain ⟨_, ⟨_, rfl⟩ | ⟨placed, _⟩⟩ := finished_eq_ok_iff.mp h
  · refine finished_eq_ok_iff.mpr ⟨beside.idle, .inl ⟨beside.unplaced', ?_⟩⟩
    rw [mainEntry, mainEntry, beside.main, beside.before]
  · rw [beside.unplaced] at placed
    cases placed

/-- All lines in the branches: the other has read the references among
them. -/
theorem run {expand : String → Site → Except Failure Expansion} {lines : List Site}
    (beside : Beside made other) (h : lines.foldlM (step expand) made = .ok later) :
    ∃ last, (lines.filter Site.isReference).foldlM (step expand) other = .ok last ∧
      Beside later last := by
  induction lines generalizing made other with
  | nil =>
    cases h
    exact ⟨other, rfl, beside⟩
  | cons site rest ih =>
    rw [List.foldlM_cons] at h
    obtain ⟨next, first, more⟩ := Except.bind_eq_ok_iff.mp h
    obtain ⟨part, found, taken⟩ := step_eq_ok_iff.mp first
    cases ref : site.form.reference? with
    | none =>
      have skipped : (site :: rest).filter Site.isReference = rest.filter Site.isReference :=
        List.filter_cons_of_neg (by simp [Site.isReference, ref])
      rw [skipped]
      exact ih (beside.take ref taken) more
    | some name =>
      have read : (site :: rest).filter Site.isReference
          = site :: rest.filter Site.isReference :=
        List.filter_cons_of_pos (by simp [Site.isReference, ref])
      have form := BodyLine.eq_of_reference ref
      rw [form] at taken
      cases taken
      have same : other.step expand site = .ok (other.splice part) :=
        step_eq_ok_iff.mpr ⟨part, found, by rw [form]; rfl⟩
      rw [read, List.foldlM_cons, same]
      exact ih (beside.splice part) more

end Beside

/-- A packet without a placeholder comes to what it comes to without its
branches. -/
theorem assembled_unbranched {expand : String → Site → Except Failure Expansion}
    {flat : String → Expansion}
    (flattens : ∀ name site found, expand name site = .ok found → found = flat name)
    {body : Body} (unplaced : hasPlaceholder (body.lines.map Site.form) = false)
    {set : SignatureSet} (h : assembled expand body.lines = .ok set) :
    assembled expand body.unbranched.lines = .ok set := by
  obtain ⟨made, run, finished⟩ := assembled_eq_ok_iff.mp h
  have parts : body.lines = body.beforeBranches ++ body.inBranches :=
    List.takeWhile_append_dropWhile.symm
  have left : body.unbranched.lines
      = body.beforeBranches ++ body.inBranches.filter Site.isReference := rfl
  cases branches : body.inBranches with
  | nil =>
    rw [left, branches, List.filter_nil, ← branches, ← parts]
    exact h
  | cons site rest =>
    obtain ⟨header, form⟩ := body.header_of_inBranches branches
    rw [parts, branches, List.foldlM_append] at run
    obtain ⟨middle, opening, run⟩ := Except.bind_eq_ok_iff.mp run
    rw [List.foldlM_cons] at run
    obtain ⟨opened, started, run⟩ := Except.bind_eq_ok_iff.mp run
    have early : hasPlaceholder (body.beforeBranches.map Site.form) = false := by
      rw [parts, List.map_append, hasPlaceholder, List.any_append, Bool.or_eq_false_iff]
        at unplaced
      exact unplaced.1
    obtain ⟨part, _, taken⟩ := step_eq_ok_iff.mp started
    rw [form] at taken
    obtain ⟨last, same, beside⟩ := (Beside.start flattens early opening taken).run run
    have skipped : (site :: rest).filter Site.isReference = rest.filter Site.isReference :=
      List.filter_cons_of_neg (by simp [Site.isReference, form, BodyLine.reference?])
    have taken' : body.unbranched.lines.foldlM (step expand) {} = .ok last := by
      rw [left, branches, skipped, List.foldlM_append]
      exact Except.bind_eq_ok_iff.mpr ⟨middle, opening, same⟩
    exact assembled_eq_ok_iff.mpr ⟨last, taken', beside.finished finished⟩

end Assembly

/-! ## Workspaces -/

namespace Workspace

/-- The workspace in which a packet has been declared with another
body. -/
def withBody (workspace : Workspace) (header : String) (packet : Packet) (body : Body) :
    Workspace :=
  { workspace with
    declared := { workspace.declared with
      packets := workspace.declared.packets.insert header { packet with body } } }

variable {workspace : Workspace} {header : String} {packet : Packet}

/-- A packet with another body comes to what its lines come to. -/
theorem compilePacket_withBody (packet : Packet)
    (fresh : workspace.results.packets.get? (upper header) = none)
    {body : Body} {set : SignatureSet}
    (assembled : Assembly.assembled (fun name site => (workspace.compileFragment name site).1)
      body.lines = .ok set) :
    let other := workspace.withBody (upper header) packet body
    (other.compilePacket header).1 = .ok () ∧
      (other.compilePacket header).2.results.packets.get? (upper header) = some set := by
  intro other
  have declared : other.declared.packets.get? (upper header) = some { packet with body } := by
    simp [other, withBody, OrderedMap.get?_insert]
  obtain ⟨result, keeps⟩ := compilePacket_eq_assembled declared fresh
  have assembled' : Assembly.assembled (fun name site => (other.compileFragment name site).1)
      body.lines = .ok set := assembled
  refine ⟨?_, keeps set assembled'⟩
  rw [result, assembled']
  rfl

/-- A packet that has no placeholder and is compiled for the first time.
Its signatures are those that it has without its branches, where only the
references in them are left. So they are those of the lines before the
first branch, if no branch has a reference. -/
theorem compilePacket_unbranched
    (declared : workspace.declared.packets.get? (upper header) = some packet)
    (fresh : workspace.results.packets.get? (upper header) = none)
    (unplaced : hasPlaceholder packet.forms = false)
    (compiled : (workspace.compilePacket header).1 = .ok ()) :
    let other (body : Body) := (workspace.withBody (upper header) packet body).compilePacket header
    ∃ set,
      (workspace.compilePacket header).2.results.packets.get? (upper header) = some set ∧
      ((other packet.body.unbranched).1 = .ok () ∧
        (other packet.body.unbranched).2.results.packets.get? (upper header) = some set) ∧
      ((∀ site ∈ packet.body.inBranches, site.isReference = false) →
        (other packet.body.truncated).1 = .ok () ∧
          (other packet.body.truncated).2.results.packets.get? (upper header) = some set) := by
  intro other
  obtain ⟨result, keeps⟩ := compilePacket_eq_assembled declared fresh
  cases assembled : Assembly.assembled (fun name site => (workspace.compileFragment name site).1)
      packet.body.lines with
  | error failure =>
    rw [result, assembled] at compiled
    cases compiled
  | ok set =>
    have unbranched := compilePacket_withBody packet fresh
      (Assembly.assembled_unbranched (fun _ _ _ h => eq_flattened h) unplaced assembled)
    refine ⟨set, keeps set assembled, unbranched, ?_⟩
    intro none
    rw [← packet.body.unbranched_eq_truncated none]
    exact unbranched

/-- A packet without a placeholder, with a field in its only branch and a
reference behind it. -/
def strayPacket : Packet where
  description := "Stray"
  header := "01"
  line := 3
  body := ⟨[⟨4, "a:$1"⟩, ⟨5, "SubCate[X:01]"⟩, ⟨6, "b:$4"⟩, ⟨7, "+ Fragment[Tail]"⟩], by decide⟩

/-- The workspace with the packet and the fragment that it refers to. -/
def stray : Workspace :=
  List.foldl Workspace.perform {}
    [.registerFragment "Tail" ⟨1, "Fragment[Tail]"⟩,
     .addLine (.fragment "Tail") ⟨2, "y:$2"⟩,
     .addPacket strayPacket "Packet[Stray]:01"]

/-- The field in the branch is ignored, and the fragment is not. -/
theorem compilePacket_unbranched_stray :
    stray.declared.packets.get? (upper "01") = some strayPacket ∧
    stray.results.packets.get? (upper "01") = none ∧
    hasPlaceholder strayPacket.forms = false ∧
    (stray.compilePacket "01").1 = .ok () ∧
    let other := stray.withBody "01" strayPacket strayPacket.body.unbranched
    ∃ set, (stray.compilePacket "01").2.results.packets.get? "01" = some set ∧
      set.keys = ["$1 $2"] ∧
      (other.compilePacket "01").2.results.packets.get? "01" = some set := by
  have declared : stray.declared.packets.get? (upper "01") = some strayPacket := by
    decide +kernel
  have fresh : stray.results.packets.get? (upper "01") = none := by decide +kernel
  have unplaced : hasPlaceholder strayPacket.forms = false := by decide +kernel
  have compiled : (stray.compilePacket "01").1 = .ok () := by decide +kernel
  obtain ⟨set, kept, ⟨_, same⟩, _⟩ :=
    compilePacket_unbranched declared fresh unplaced compiled
  have keys : ((stray.compilePacket "01").2.results.packets.get? "01").map OrderedMap.keys
      = some ["$1 $2"] := by decide +kernel
  have header : upper "01" = "01" := by decide +kernel
  rw [header] at kept same
  rw [kept] at keys
  exact ⟨declared, fresh, unplaced, compiled, set, kept, by simpa using keys, same⟩

/-- Its lines before the branch come to something else. -/
theorem truncated_differs_stray :
    hasPlaceholder strayPacket.forms = false ∧
    (stray.compilePacket "01").1 = .ok () ∧
    let other := stray.withBody "01" strayPacket strayPacket.body.truncated
    (other.compilePacket "01").1 = .ok () ∧
    (other.compilePacket "01").2.results.packets.get? "01"
      ≠ (stray.compilePacket "01").2.results.packets.get? "01" := by
  decide +kernel

end Workspace

end PacketLayout
