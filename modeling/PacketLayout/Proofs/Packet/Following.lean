/-
PacketLayout.Proofs.Packet.Following — what is collected follows the
outline.

After any number of accepted lines, each part of the assembly is the part
that the outline reads off these lines. The open branch is the last one
written, and the finished branches are those before it that have a text.

* `BranchesFollow.closed`: once the open branch is closed, the finished
  branches are those that have a text.
* `Follows.take`, `follows_of_foldlM`: every accepted line keeps this up,
  so it holds of what has been collected of a packet.
* `Follows.finished`: at the end the signatures are the entries of the
  outline.
-/
import PacketLayout.Proofs.OrderedMapEntries
import PacketLayout.Proofs.Packet.AcceptedSteps
import PacketLayout.Proofs.Rendering

namespace PacketLayout

open Outline

/-- The description of a branch and what it is made of. -/
def Branch.draft (branch : Branch) : String × Expansion :=
  (branch.description, ⟨branch.signature, branch.fields⟩)

def WrittenBranch.draft (branch : WrittenBranch) : String × Expansion :=
  (branch.header.description, branch.content)

theorem WrittenBranch.draft_extend (branch : WrittenBranch) (line : BodyLine) :
    (branch.extend line).draft = (branch.draft.1, branch.draft.2.append line.own) := by
  simp [draft, content, extend, Expansion.concat, Expansion.append]

/-- What makes up a branch gives it its text. -/
theorem WrittenBranch.text_eq {branch : Branch} {written : WrittenBranch}
    (same : branch.draft = written.draft) : written.text = branch.signature.render := by
  have contents := congrArg Prod.snd same
  have alike : branch.signature = written.content.signature :=
    congrArg Expansion.signature contents
  rw [text, alike]

theorem Branch.draft_add (branch : Branch) (token : Token) (field : Field) :
    (branch.add token field).draft
      = (branch.draft.1, branch.draft.2.append ⟨[token], [field]⟩) := rfl

/-- A line with a unit of its own is no header, no placeholder and no
reference. -/
theorem BodyLine.of_own_eq {line : BodyLine} {token : Token} {field : Field}
    (own : line.own = ⟨[token], [field]⟩) (flat : String → Expansion) :
    line.isHeader = false ∧ line.isPlaceholder = false ∧ line.spliced flat = {} ∧
      line.mainUnits flat = [token] := by
  cases line with
  | field line => cases own; exact ⟨rfl, rfl, rfl, rfl⟩
  | branch header => cases own
  | unrecognized => cases own
  | control line =>
    cases line with
    | repeatStart => cases own; exact ⟨rfl, rfl, rfl, rfl⟩
    | repeatEnd => cases own; exact ⟨rfl, rfl, rfl, rfl⟩
    | fragmentRef name => cases own
    | placeholder => cases own
    | pack => cases own

/-! ## Branches -/

/-- The open branch is the last one written, and the finished ones are
those before it that have a text. -/
structure BranchesFollow (done : List BodyLine) (branches : List Branch)
    (current : Option Branch) : Prop where
  idle : current = none → writtenBranches done = [] ∧ branches = []
  busy : ∀ branch, current = some branch → ∃ earlier last,
    writtenBranches done = earlier ++ [last] ∧ branch.draft = last.draft ∧
      branches.map Branch.draft
        = (earlier.filter fun branch => branch.text != "").map WrittenBranch.draft

namespace BranchesFollow

variable {done : List BodyLine} {branches : List Branch} {current : Option Branch}
  {line : BodyLine}

/-- A branch is open once a header has been met. -/
theorem any_isHeader (follows : BranchesFollow done branches current) :
    done.any BodyLine.isHeader = current.isSome := by
  cases opened : current with
  | none => exact writtenBranches_eq_nil_iff.mp (follows.idle opened).1
  | some branch =>
    obtain ⟨earlier, last, written, _⟩ := follows.busy branch opened
    rw [Option.isSome_some, ← Bool.not_eq_false, ← writtenBranches_eq_nil_iff, written]
    simp

/-- What a line adds by itself goes to the open branch. -/
theorem extend {branch : Branch} (follows : BranchesFollow done branches (some branch))
    (body : line.isHeader = false) {longer : Branch}
    (added : longer.draft = (branch.draft.1, branch.draft.2.append line.own)) :
    BranchesFollow (done ++ [line]) branches (some longer) where
  idle none := nomatch none
  busy other here := by
    obtain ⟨earlier, last, written, same, kept⟩ := follows.busy branch rfl
    cases here
    refine ⟨earlier, last.extend line, writtenBranches_concat body written, ?_, kept⟩
    rw [added, same, WrittenBranch.draft_extend]

/-- Before the first header nothing goes to a branch. -/
theorem outside (follows : BranchesFollow done branches none) (body : line.isHeader = false) :
    BranchesFollow (done ++ [line]) branches none where
  idle _ := ⟨writtenBranches_concat_of_nil body (follows.idle rfl).1, (follows.idle rfl).2⟩
  busy _ here := nomatch here

/-- A line that adds nothing changes nothing. -/
theorem skip (follows : BranchesFollow done branches current) (body : line.isHeader = false)
    (own : line.own = {}) : BranchesFollow (done ++ [line]) branches current := by
  cases current with
  | none => exact follows.outside body
  | some branch => exact follows.extend body (by simp [own])

/-- Closing the open branch finishes it, if it has a text. -/
theorem closed (follows : BranchesFollow done branches current) :
    (branches ++ current.toList.filter fun branch => !branch.signature.isBlank).map Branch.draft
      = (filledBranches done).map WrittenBranch.draft := by
  unfold filledBranches
  cases current with
  | none =>
    obtain ⟨unwritten, none⟩ := follows.idle rfl
    simp [unwritten, none]
  | some branch =>
    obtain ⟨earlier, last, written, same, kept⟩ := follows.busy branch rfl
    have filled : (last.text != "") = !branch.signature.isBlank := by
      rw [WrittenBranch.text_eq same, Signature.render_bne_empty]
    rw [written, List.filter_append, List.map_append, List.map_append, kept]
    cases blank : branch.signature.isBlank with
    | true => simp [filled, blank]
    | false => simp [filled, blank, same]

/-- A header closes the open branch and opens another one. -/
theorem header (follows : BranchesFollow done branches current) (header : BranchHeader)
    (site : Site) :
    BranchesFollow (done ++ [.branch header])
      (branches ++ current.toList.filter fun branch => !branch.signature.isBlank)
      (some (.begun header site)) where
  idle none := nomatch none
  busy branch here := by
    cases here
    refine ⟨writtenBranches done, ⟨header, []⟩, writtenBranches_concat_header done header,
      ?_, follows.closed⟩
    simp [Branch.draft, Branch.begun, WrittenBranch.draft, WrittenBranch.content,
      Expansion.concat, Expansion.append]

end BranchesFollow

namespace Assembly

/-- The parts that have been collected are those that the lines
outline. -/
structure Follows (flat : String → Expansion) (done : List BodyLine) (made : Assembly) :
    Prop where
  placeholder : made.placeholder.isSome = hasPlaceholder done
  main : made.main = Outline.main flat done
  before : made.before = Outline.before flat done
  after : made.after = Outline.after done
  branches : BranchesFollow done made.branches made.current

namespace Follows

variable {flat : String → Expansion} {done : List BodyLine} {made later : Assembly}

theorem start : Follows flat [] {} where
  placeholder := rfl
  main := rfl
  before := rfl
  after := rfl
  branches := ⟨fun _ => ⟨rfl, rfl⟩, fun _ here => nomatch here⟩

/-- A line with a unit and a field of its own. -/
theorem add (follows : Follows flat done made) {line : BodyLine} {token : Token}
    {field : Field} (own : line.own = ⟨[token], [field]⟩) :
    Follows flat (done ++ [line]) (made.add token field) := by
  obtain ⟨header, place, spliced, units⟩ := BodyLine.of_own_eq own flat
  have headed := follows.branches.any_isHeader
  have seen := follows.placeholder
  have written := follows.branches
  unfold Assembly.add
  cases opened : made.current with
  | some branch =>
    rw [opened] at headed written
    refine ⟨?_, ?_, ?_, ?_, written.extend header ?_⟩
    · simp [hasPlaceholder_concat, place, seen]
    · simp [main_concat, headed, spliced, follows.main]
    · simp [before_concat, headed, spliced, follows.before]
    · simp [after_concat, headed, follows.after]
    · rw [Branch.draft_add, own]
  | none =>
    rw [opened] at headed written
    -- in the main body the unit is the same, but the field has two places
    cases behind : made.placeholder.isSome with
    | true =>
      rw [behind] at seen
      refine ⟨?_, ?_, ?_, ?_, written.outside header⟩
      · simp [hasPlaceholder_concat, behind, ← seen]
      · simp [main_concat, headed, header, units, follows.main]
      · simp [before_concat, ← seen, spliced, follows.before]
      · simp [after_concat, headed, ← seen, own, follows.after]
    | false =>
      rw [behind] at seen
      refine ⟨?_, ?_, ?_, ?_, written.outside header⟩
      · simp [hasPlaceholder_concat, place, behind, ← seen]
      · simp [main_concat, headed, header, units, follows.main]
      · simp [before_concat, headed, header, place, ← seen, own, spliced, follows.before]
      · simp [after_concat, ← seen, follows.after]

theorem withOpened (follows : Follows flat done made) (header : BranchHeader) (site : Site) :
    Follows flat (done ++ [.branch header]) (made.withClosed.withOpened header site) := by
  unfold Assembly.withOpened withClosed
  refine ⟨?_, ?_, ?_, ?_, follows.branches.header header site⟩
  · simpa [hasPlaceholder_concat, BodyLine.isPlaceholder] using follows.placeholder
  · simpa [main_concat, BodyLine.isHeader, BodyLine.spliced] using follows.main
  · simpa [before_concat, BodyLine.isHeader, BodyLine.spliced] using follows.before
  · simpa [after_concat, BodyLine.own] using follows.after

theorem splice (follows : Follows flat done made) (name : String) :
    Follows flat (done ++ [.control (.fragmentRef name)]) (made.splice (flat name)) := by
  unfold Assembly.splice
  refine ⟨?_, ?_, ?_, ?_, follows.branches.skip rfl rfl⟩
  · simpa [hasPlaceholder_concat, BodyLine.isPlaceholder] using follows.placeholder
  · simp [main_concat, BodyLine.mainUnits, BodyLine.spliced, BodyLine.own, follows.main]
  · simp [before_concat, BodyLine.spliced, BodyLine.own, follows.before]
  · simpa [after_concat, BodyLine.own] using follows.after

/-- The placeholder, where none stands before it and no branch is
open. -/
theorem place (follows : Follows flat done made) (idle : made.current = none) (line : Nat) :
    Follows flat (done ++ [.control .placeholder])
      { made with main := made.main ++ [.subCategory], placeholder := some line } := by
  have headed := follows.branches.any_isHeader
  rw [idle] at headed
  refine ⟨?_, ?_, ?_, ?_, follows.branches.skip rfl rfl⟩
  · simp [hasPlaceholder_concat, BodyLine.isPlaceholder]
  · simp [main_concat, headed, BodyLine.isHeader, BodyLine.mainUnits, follows.main]
  · simpa [before_concat, BodyLine.isPlaceholder, BodyLine.spliced] using follows.before
  · simpa [after_concat, BodyLine.own] using follows.after

theorem pack (follows : Follows flat done made) :
    Follows flat (done ++ [.control .pack]) { made with packed := true } := by
  refine ⟨?_, ?_, ?_, ?_, follows.branches.skip rfl rfl⟩
  · simpa [hasPlaceholder_concat, BodyLine.isPlaceholder] using follows.placeholder
  · simp [main_concat, BodyLine.mainUnits, BodyLine.spliced, BodyLine.own, follows.main]
  · simp [before_concat, BodyLine.spliced, BodyLine.own, follows.before]
  · simpa [after_concat, BodyLine.own] using follows.after

/-- Which group is open makes no difference. -/
theorem withRepeat (follows : Follows flat done made) (site : Option Site) :
    Follows flat done { made with openRepeat := site } :=
  ⟨follows.placeholder, follows.main, follows.before, follows.after, follows.branches⟩

/-- Every line that is accepted keeps what has been collected in step
with the outline. -/
theorem take (follows : Follows flat done made) {site : Site} {line : BodyLine}
    (taken : made.take site (line.spliced flat) line = .ok later) :
    Follows flat (done ++ [line]) later := by
  cases line with
  | field line =>
    cases taken
    exact follows.add rfl
  | branch header =>
    obtain ⟨_, rfl⟩ := opened_eq_ok_iff.mp taken
    exact follows.withOpened header site
  | unrecognized => cases taken
  | control line =>
    cases line with
    | fragmentRef name =>
      cases taken
      exact follows.splice name
    | placeholder =>
      obtain ⟨⟨_, _, idle⟩, rfl⟩ := addPlaceholder_eq_ok_iff.mp taken
      exact follows.place idle site.line
    | repeatStart =>
      obtain ⟨_, rfl⟩ := startRepeat_eq_ok_iff.mp taken
      have added : Follows flat (done ++ [.control .repeatStart])
          (made.add .repeatStart .placeholder) := follows.add rfl
      exact added.withRepeat (some site)
    | repeatEnd =>
      obtain ⟨_, rfl⟩ := endRepeat_eq_ok_iff.mp taken
      have added : Follows flat (done ++ [.control .repeatEnd])
          (made.add .repeatEnd .placeholder) := follows.add rfl
      exact added.withRepeat none
    | pack =>
      obtain ⟨_, rfl⟩ := pack_eq_ok_iff.mp taken
      exact follows.pack

end Follows

/-! ## Whole packets -/

variable {expand : String → Site → Except Failure Expansion} {flat : String → Expansion}

/-- What a line takes from a fragment is what `flat` says, if `flat` says
what is found. -/
theorem spliced_of_part
    (flattens : ∀ name site found, expand name site = .ok found → found = flat name)
    {site : Site} {line : BodyLine} {part : Expansion}
    (h : line.part expand site = .ok part) : part = line.spliced flat := by
  cases line with
  | field line => cases h; rfl
  | branch header => cases h; rfl
  | unrecognized => cases h; rfl
  | control line =>
    cases line with
    | fragmentRef name => exact flattens name site part h
    | placeholder => cases h; rfl
    | repeatStart => cases h; rfl
    | repeatEnd => cases h; rfl
    | pack => cases h; rfl

/-- What has been collected of a packet follows the outline. -/
theorem follows_of_foldlM
    (flattens : ∀ name site found, expand name site = .ok found → found = flat name)
    {lines : List Site} {made : Assembly} (h : lines.foldlM (step expand) {} = .ok made) :
    Follows flat (lines.map Site.form) made := by
  refine foldlM_step_induction (motive := fun done made => Follows flat (done.map Site.form) made)
    .start ?_ h
  intro done site made later follows accepted
  obtain ⟨part, found, taken⟩ := step_eq_ok_iff.mp accepted
  rw [spliced_of_part flattens found] at taken
  rw [List.map_append]
  exact follows.take taken

/-- Lines that are accepted are of a known form, and what they refer to
is found. -/
theorem found_of_foldlM {lines : List Site} {made : Assembly}
    (h : lines.foldlM (step expand) {} = .ok made) :
    ∀ site ∈ lines, site.form ≠ .unrecognized ∧ ∃ part, site.form.part expand site = .ok part := by
  refine foldlM_step_induction (motive := fun done _ => ∀ site ∈ done,
    site.form ≠ .unrecognized ∧ ∃ part, site.form.part expand site = .ok part) (by simp) ?_ h
  intro done site made later known accepted other mem
  obtain ⟨part, found, taken⟩ := step_eq_ok_iff.mp accepted
  rcases List.mem_append.mp mem with old | new
  · exact known other old
  · obtain rfl : other = site := by simpa using new
    refine ⟨fun unknown => ?_, part, found⟩
    rw [unknown] at taken
    cases taken

variable {done : List BodyLine} {made : Assembly}

/-- The entry that a branch gives, from its description and what it is
made of. -/
def draftEntry (made : Assembly) (draft : String × Expansion) : String × SignatureEntry :=
  ((Signature.expand made.main draft.2.signature).render,
    ⟨some draft.1, made.before ++ draft.2.fields ++ made.after⟩)

/-- The entries of the finished branches are those of the branches that
have a text. -/
theorem Follows.map_entry (follows : Follows flat done made) :
    made.withClosed.branches.map made.entry
      = (filledBranches done).map (Outline.entry flat done) := by
  have each : ∀ written : WrittenBranch,
      made.draftEntry written.draft = Outline.entry flat done written := by
    intro written
    simp only [draftEntry, Outline.entry, Outline.signature, WrittenBranch.draft,
      follows.main, follows.before, follows.after]
  calc made.withClosed.branches.map made.entry
      = (made.withClosed.branches.map Branch.draft).map made.draftEntry := by
        rw [List.map_map]
        rfl
    _ = ((filledBranches done).map WrittenBranch.draft).map made.draftEntry := by
        rw [withClosed, follows.branches.closed]
    _ = (filledBranches done).map (Outline.entry flat done) := by
        rw [List.map_map]
        exact List.map_congr_left fun written _ => each written

theorem Follows.unplaced (follows : Follows flat done made) (unseen : made.placeholder = none) :
    ¬ hasPlaceholder done = true := by
  rw [← follows.placeholder, unseen]
  simp

/-- The signatures of a packet are the entries of the outline, written
one after another. -/
theorem Follows.finished (follows : Follows flat done made) {set : SignatureSet}
    (h : made.finished = .ok set) : set = .ofEntries (entries flat done) := by
  obtain ⟨_, ⟨unseen, rfl⟩ | ⟨seen, _, rfl⟩⟩ := finished_eq_ok_iff.mp h
  · rw [entries, if_neg (follows.unplaced unseen), ← follows.main, ← follows.before]
    rfl
  · rw [follows.placeholder] at seen
    rw [entries, if_pos seen, ← follows.map_entry, OrderedMap.ofEntries, OrderedMap.insertAll,
      List.foldl_map]
    rfl

end Assembly

end PacketLayout
