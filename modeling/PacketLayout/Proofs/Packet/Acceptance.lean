/-
PacketLayout.Proofs.Packet.Acceptance — which packets are accepted.

A packet is refused by the line that breaks a rule, or at its end. The
flags that decide this are what the lines so far come to, so each line is
accepted exactly if it fits behind them, and a packet exactly if its
lines are well-formed. What its fragments come to makes no difference.

* `exists_take_iff`: a line is accepted exactly if it fits.
* `exists_foldlM_iff`, `exists_assembled_iff`: so are all lines, and the
  packet.
* `Workspace.compilePacket_ok_iff`: a packet is compiled exactly if its
  lines are well-formed.
-/
import PacketLayout.Proofs.Packet.SinglePass
import PacketLayout.Proofs.Packet.WellFormed

namespace PacketLayout

open Outline Text

/-- The texts of the finished branches are those of the branches before
the last one. -/
theorem BranchesFollow.texts {done : List BodyLine} {branches : List Branch}
    {current : Option Branch} (follows : BranchesFollow done branches current) :
    branches.map (fun branch => branch.signature.render)
      = (earlierBranches done).map WrittenBranch.text := by
  have drafts : branches.map Branch.draft = (earlierBranches done).map WrittenBranch.draft := by
    cases current with
    | none =>
      obtain ⟨unwritten, none⟩ := follows.idle rfl
      simp [none, earlierBranches, unwritten]
    | some branch =>
      obtain ⟨earlier, last, written, _, kept⟩ := follows.busy branch rfl
      rw [kept, earlierBranches, written, List.dropLast_concat]
  have texts := congrArg (List.map fun draft => draft.2.signature.render) drafts
  rw [List.map_map, List.map_map] at texts
  exact texts

namespace Assembly

/-- The flags say what the lines come to. -/
structure Noted (done : List BodyLine) (made : Assembly) : Prop where
  packed : made.packed = done.any BodyLine.isPack
  group : made.openRepeat.isSome = true ↔ lastMark done = .start
  descriptions : made.descriptions = Outline.descriptions done
  discriminators : made.discriminators = Outline.discriminators done

section Step

variable {flat : String → Expansion} {done : List BodyLine} {made later : Assembly}
  {site : Site} {part : Expansion} {line : BodyLine}

theorem Noted.openRepeat_eq_none (noted : Noted done made) :
    made.openRepeat = none ↔ lastMark done ≠ .start := by
  rw [ne_eq, ← noted.group]
  simp

/-- The open branch can be closed if the last branch differs from those
before it. -/
theorem closable_iff (follows : BranchesFollow done made.branches made.current) :
    made.Closable ↔ LastDiffers done := by
  have texts := follows.texts
  unfold Closable LastDiffers
  cases opened : made.current with
  | none =>
    rw [opened] at follows
    simp [(follows.idle rfl).1]
  | some branch =>
    rw [opened] at follows
    obtain ⟨earlier, last, written, same, _⟩ := follows.busy branch rfl
    have text := WrittenBranch.text_eq same
    have blank : branch.signature.isBlank = false ↔ last.text ≠ "" := by
      rw [text, ne_eq, Signature.render_eq_empty_iff]
      simp
    rw [written, List.getLast?_concat, ← texts]
    simp [blank, text]

/-- A line is accepted exactly if it fits. -/
theorem exists_take_iff (follows : Follows flat done made) (noted : Noted done made) :
    (∃ later, made.take site part line = .ok later) ↔ Fits done line := by
  have headed := follows.branches.any_isHeader
  have outside : made.outside = false ↔ Inside done := by
    rw [Inside, headed, ← noted.packed, Assembly.outside]
    cases made.packed with
    | false => simp
    | true => cases made.current <;> simp
  cases line with
  | field line => simp [take, Fits]
  | branch header =>
    simp only [take, opened_eq_ok_iff, Fits, noted.openRepeat_eq_none, noted.descriptions,
      noted.discriminators, closable_iff follows.branches, exists_and_left, exists_eq,
      and_true]
    constructor
    · rintro ⟨closed, differs, described, told⟩
      exact ⟨closed, described, told, differs⟩
    · rintro ⟨closed, described, told, differs⟩
      exact ⟨closed, differs, described, told⟩
  | unrecognized => simp [take, Fits]
  | control line =>
    cases line with
    | fragmentRef name => simp [take, Fits]
    | placeholder =>
      simp only [take, addPlaceholder_eq_ok_iff, Fits, exists_and_left, exists_eq, and_true]
      rw [← follows.placeholder, headed, ← noted.packed]
      simp [and_comm]
    | repeatStart =>
      simp only [take, startRepeat_eq_ok_iff, Fits, exists_and_left, exists_eq, and_true,
        noted.openRepeat_eq_none, outside]
    | repeatEnd =>
      simp only [take, endRepeat_eq_ok_iff, Fits, exists_and_left, exists_eq, and_true,
        noted.group, outside]
    | pack =>
      simp only [take, pack_eq_ok_iff, Fits, exists_and_left, exists_eq, and_true,
        noted.openRepeat_eq_none]
      rw [headed]
      simp

/-- A line that is no header leaves the descriptions and discriminators
as they are. -/
theorem Noted.of_eq (noted : Noted done made) (header : line.header? = none)
    (packed : later.packed = (made.packed || line.isPack))
    (group : later.openRepeat.isSome = true ↔ lastMark (done ++ [line]) = .start)
    (described : later.descriptions = made.descriptions)
    (told : later.discriminators = made.discriminators) : Noted (done ++ [line]) later where
  packed := by simp [packed, noted.packed]
  group := group
  descriptions := by simp [described, noted.descriptions, Outline.descriptions, header]
  discriminators := by simp [told, noted.discriminators, Outline.discriminators, header]

/-- Adding a unit and its field changes no flag. -/
theorem add_flags (made : Assembly) (token : Token) (field : Field) :
    (made.add token field).packed = made.packed ∧
      (made.add token field).openRepeat = made.openRepeat ∧
      (made.add token field).descriptions = made.descriptions ∧
      (made.add token field).discriminators = made.discriminators := by
  unfold add
  cases made.current with
  | some branch => exact ⟨rfl, rfl, rfl, rfl⟩
  | none => cases made.placeholder.isSome <;> exact ⟨rfl, rfl, rfl, rfl⟩

/-- A header notes its description and its discriminator. -/
theorem Noted.withOpened (noted : Noted done made) (header : BranchHeader) (site : Site)
    (closed : made.openRepeat = none) :
    Noted (done ++ [.branch header]) (made.withClosed.withOpened header site) := by
  unfold Assembly.withOpened withClosed
  refine ⟨?_, ?_, ?_, ?_⟩
  · simpa [BodyLine.isPack] using noted.packed
  · simp [lastMark_concat, BodyLine.mark?, closed]
  · rw [Outline.descriptions, List.filterMap_append, List.map_append, List.filter_append]
    by_cases empty : header.description = ""
    · simp [noted.descriptions, Outline.descriptions, BodyLine.header?, empty]
    · simp [noted.descriptions, Outline.descriptions, BodyLine.header?, empty]
  · rw [Outline.discriminators, List.filterMap_append, List.filterMap_append]
    cases told : header.discriminator with
    | none => simp [noted.discriminators, Outline.discriminators, BodyLine.header?, told]
    | some bytes => simp [noted.discriminators, Outline.discriminators, BodyLine.header?, told]

/-- The flags go on saying what the lines come to. -/
theorem Noted.take (noted : Noted done made) (follows : Follows flat done made)
    (taken : made.take site part line = .ok later) : Noted (done ++ [line]) later := by
  have headed := follows.branches.any_isHeader
  have mark := lastMark_concat done line
  cases line with
  | field line =>
    cases taken
    obtain ⟨packed, openRepeat, described, told⟩ := made.add_flags line.token line.field
    refine noted.of_eq rfl (by simp [packed, BodyLine.isPack]) ?_ described told
    rw [openRepeat, mark]
    exact noted.group
  | branch header =>
    obtain ⟨⟨closed, _⟩, rfl⟩ := opened_eq_ok_iff.mp taken
    exact noted.withOpened header site closed
  | unrecognized => cases taken
  | control line =>
    cases line with
    | fragmentRef name =>
      cases taken
      refine noted.of_eq rfl (by simp [splice, BodyLine.isPack]) ?_ rfl rfl
      rw [mark]
      exact noted.group
    | placeholder =>
      obtain ⟨_, rfl⟩ := addPlaceholder_eq_ok_iff.mp taken
      refine noted.of_eq rfl (by simp [BodyLine.isPack]) ?_ rfl rfl
      rw [mark]
      exact noted.group
    | repeatStart =>
      obtain ⟨_, rfl⟩ := startRepeat_eq_ok_iff.mp taken
      obtain ⟨packed, _, described, told⟩ := made.add_flags .repeatStart .placeholder
      refine noted.of_eq rfl (by simp [packed, BodyLine.isPack]) ?_ described told
      simp [mark, BodyLine.mark?]
    | repeatEnd =>
      obtain ⟨_, rfl⟩ := endRepeat_eq_ok_iff.mp taken
      obtain ⟨packed, _, described, told⟩ := made.add_flags .repeatEnd .placeholder
      refine noted.of_eq rfl (by simp [packed, BodyLine.isPack]) ?_ described told
      simp [mark, BodyLine.mark?]
    | pack =>
      obtain ⟨outside, rfl⟩ := pack_eq_ok_iff.mp taken
      refine noted.of_eq rfl (by simp [BodyLine.isPack]) ?_ rfl rfl
      rw [mark, headed]
      cases opened : made.current with
      | none => simp [BodyLine.mark?, outside opened]
      | some branch => simpa [BodyLine.mark?] using noted.group

/-- The end is accepted outside groups, if the last branch, when it is
compared, differs from the others. -/
theorem exists_finished_iff (follows : Follows flat done made) (noted : Noted done made) :
    (∃ set, made.finished = .ok set) ↔
      lastMark done ≠ .start ∧ (hasPlaceholder done = true → LastDiffers done) := by
  simp only [finished_eq_ok_iff, noted.openRepeat_eq_none, closable_iff follows.branches,
    follows.placeholder, exists_and_left]
  refine and_congr_right fun _ => ?_
  have seen := follows.placeholder
  cases placed : hasPlaceholder done with
  | true =>
    have there : made.placeholder ≠ none := by
      intro none
      rw [none, placed] at seen
      cases seen
    simp [there]
  | false =>
    have none : made.placeholder = none := by
      rw [placed] at seen
      simpa using seen
    simp [none]

end Step

section Run

variable {expand : String → Site → Except Failure Expansion} {flat : String → Expansion}
  {lines : List Site}

theorem noted_of_foldlM
    (flattens : ∀ name site found, expand name site = .ok found → found = flat name)
    {made : Assembly} (h : lines.foldlM (step expand) {} = .ok made) :
    Noted (lines.map Site.form) made := by
  have both : Follows flat (lines.map Site.form) made ∧ Noted (lines.map Site.form) made := by
    refine foldlM_step_induction (motive := fun done made =>
      Follows flat (done.map Site.form) made ∧ Noted (done.map Site.form) made) ?_ ?_ h
    · exact ⟨.start, rfl, by simp [lastMark, marks, parted], rfl, rfl⟩
    · intro done site made later known accepted
      obtain ⟨part, found, taken⟩ := step_eq_ok_iff.mp accepted
      rw [spliced_of_part flattens found] at taken
      rw [List.map_append]
      exact ⟨known.1.take taken, known.2.take known.1 taken⟩
  exact both.2

/-- Lines of known forms whose references are found are accepted exactly
if they may be the first ones of a packet. -/
theorem exists_foldlM_iff
    (flattens : ∀ name site found, expand name site = .ok found → found = flat name)
    (known : ∀ site ∈ lines, site.form ≠ .unrecognized)
    (found : ∀ site ∈ lines, ∃ part, site.form.part expand site = .ok part) :
    (∃ made, lines.foldlM (step expand) {} = .ok made) ↔ Admitted (lines.map Site.form) := by
  induction lines using List.reverseRecOn with
  | nil => exact ⟨fun _ => admitted_nil, fun _ => ⟨{}, rfl⟩⟩
  | append_singleton done site ih =>
    have before := ih (fun other mem => known other (by simp [mem]))
      fun other mem => found other (by simp [mem])
    have recognized := known site (by simp)
    obtain ⟨part, some⟩ := found site (by simp)
    -- a run over one more line is a run and a step
    have run : ∀ made, (done ++ [site]).foldlM (step expand) {} = .ok made ↔
        ∃ middle, done.foldlM (step expand) {} = .ok middle ∧
          middle.take site part site.form = .ok made := by
      intro made
      rw [List.foldlM_append]
      refine Except.bind_eq_ok_iff.trans (exists_congr fun middle => and_congr_right fun _ => ?_)
      simp only [List.foldlM_cons, List.foldlM_nil, bind_pure, step_eq_ok_iff, some]
      simp
    rw [List.map_append, List.map_singleton, admitted_concat recognized, ← before]
    constructor
    · rintro ⟨made, accepted⟩
      obtain ⟨middle, first, taken⟩ := (run made).mp accepted
      refine ⟨⟨middle, first⟩, ?_⟩
      exact (exists_take_iff (follows_of_foldlM flattens first)
        (noted_of_foldlM flattens first)).mp ⟨made, taken⟩
    · rintro ⟨⟨middle, first⟩, fits⟩
      obtain ⟨made, taken⟩ := (exists_take_iff (follows_of_foldlM flattens first)
        (noted_of_foldlM flattens first)).mpr fits
      exact ⟨made, (run made).mpr ⟨middle, first, taken⟩⟩

/-- A packet whose lines are of known forms and whose references are
found is accepted exactly if its lines are well-formed. -/
theorem exists_assembled_iff
    (flattens : ∀ name site found, expand name site = .ok found → found = flat name)
    (known : ∀ site ∈ lines, site.form ≠ .unrecognized)
    (found : ∀ site ∈ lines, ∃ part, site.form.part expand site = .ok part) :
    (∃ set, assembled expand lines = .ok set) ↔ WellFormed (lines.map Site.form) := by
  rw [wellFormed_iff, ← exists_foldlM_iff flattens known found]
  unfold assembled
  cases run : lines.foldlM (step expand) {} with
  | error failure => simp
  | ok made =>
    have finished := exists_finished_iff (follows_of_foldlM flattens run)
      (noted_of_foldlM flattens run)
    simpa using finished

end Run

end Assembly

namespace Workspace

/-- A packet that has not been compiled, whose lines are of known forms
and refer to fragments that can be compiled, is itself compiled exactly
if its lines are well-formed. -/
theorem compilePacket_ok_iff {workspace : Workspace} {header : String} {packet : Packet}
    (declared : workspace.declared.packets.get? (upper header) = some packet)
    (fresh : workspace.results.packets.get? (upper header) = none)
    (known : ∀ site ∈ packet.body.lines, site.form ≠ .unrecognized)
    (found : ∀ site ∈ packet.body.lines, ∀ name, site.form = .control (.fragmentRef name) →
      (workspace.compileFragment name site).1.isOk = true) :
    (workspace.compilePacket header).1 = .ok () ↔ WellFormed packet.forms := by
  have parts : ∀ site ∈ packet.body.lines, ∃ part,
      site.form.part (fun name site => (workspace.compileFragment name site).1) site
        = .ok part := by
    intro site mem
    have here := found site mem
    unfold BodyLine.part
    split
    · rename_i name form
      have resolved := here name form
      cases expanded : (workspace.compileFragment name site).1 with
      | error failure =>
        rw [expanded] at resolved
        cases resolved
      | ok expansion => exact ⟨expansion, expanded⟩
    · exact ⟨{}, rfl⟩
  have accepted := Assembly.exists_assembled_iff (fun _ _ _ h => eq_flattened h) known parts
  rw [Packet.forms, ← accepted, (compilePacket_eq_assembled declared fresh).1]
  cases Assembly.assembled (fun name site => (workspace.compileFragment name site).1)
      packet.body.lines with
  | error failure => simp [Except.map]
  | ok set => simp [Except.map]

/-- The sample packet is well-formed, so it is compiled. -/
theorem compilePacket_ok_iff_sample :
    sample.declared.packets.get? (upper "6f") = some samplePacket ∧
    sample.results.packets.get? (upper "6f") = none ∧
    (∀ site ∈ samplePacket.body.lines, site.form ≠ .unrecognized) ∧
    (∀ site ∈ samplePacket.body.lines, ∀ name, site.form = .control (.fragmentRef name) →
      (sample.compileFragment name site).1.isOk = true) ∧
    WellFormed samplePacket.forms ∧ (sample.compilePacket "6f").1 = .ok () := by
  have declared : sample.declared.packets.get? (upper "6f") = some samplePacket := by
    decide +kernel
  have fresh : sample.results.packets.get? (upper "6f") = none := by decide +kernel
  have known : ∀ site ∈ samplePacket.body.lines, site.form ≠ .unrecognized := by decide +kernel
  have parts : ∀ site ∈ samplePacket.body.lines,
      (site.form.part (fun name site => (sample.compileFragment name site).1) site).isOk
        = true := by
    decide +kernel
  have found : ∀ site ∈ samplePacket.body.lines, ∀ name,
      site.form = .control (.fragmentRef name) →
        (sample.compileFragment name site).1.isOk = true := by
    intro site mem name form
    have part := parts site mem
    rw [form] at part
    exact part
  have rules : WellFormed samplePacket.forms := by decide +kernel
  exact ⟨declared, fresh, known, found, rules,
    (compilePacket_ok_iff declared fresh known found).mpr rules⟩

end Workspace

end PacketLayout
