/-
PacketLayout.Proofs.Declaring — what declaring comes to.

A declaration is added only under a name that is free, and a line only
to a declaration that is there; everything else stays as it was. Loading
does nothing but this, line by line, and adds lines only to what it has
declared itself.

* `addFragment_ok`, `addPacket_ok`, `addLine_ok`: what a change did, if
  it was made.
* `load_ends`: what all changes of a load keep, the load keeps, whether
  it succeeds or fails.
* `loadLines_reports`: all that loading reports is what it declares.
-/
import PacketLayout.Loading
import PacketLayout.Proofs.JobRules

namespace PacketLayout

open Text

namespace Declarations

variable {declared after : Declarations}

theorem addFragment_ok {fragment : Fragment} {raw : String}
    (h : declared.addFragment fragment raw = .ok after) :
    declared.fragments.get? fragment.name = none ∧
      after = { declared with
        fragments := declared.fragments.insert fragment.name fragment } := by
  unfold addFragment at h
  split at h
  · cases h
  · rename_i free
    cases h
    refine ⟨?_, rfl⟩
    simpa [OrderedMap.contains] using free

theorem addPacket_ok {packet : Packet} {raw : String}
    (h : declared.addPacket packet raw = .ok after) :
    declared.packets.get? packet.header = none ∧
      after = { declared with
        packets := declared.packets.insert packet.header packet } := by
  unfold addPacket at h
  split at h
  · cases h
  · rename_i free
    cases h
    refine ⟨?_, rfl⟩
    simpa [OrderedMap.contains] using free

theorem addToBody_ok {body longer : Body} {site : Site}
    (h : addToBody body site = .ok longer) : body.add? site = some longer := by
  unfold addToBody at h
  split at h
  · rename_i found
    cases h
    exact found
  · cases h

theorem addLine_fragment_ok {name : String} {site : Site}
    (h : declared.addLine (.fragment name) site = .ok after) :
    ∃ fragment longer, declared.fragments.get? name = some fragment ∧
      fragment.body.add? site = some longer ∧
      after = { declared with
        fragments := declared.fragments.insert name { fragment with body := longer } } := by
  simp only [addLine] at h
  cases found : declared.fragments.get? name with
  | none => simp [found] at h
  | some fragment =>
    simp only [found] at h
    cases added : addToBody fragment.body site with
    | error failure => simp [added, Except.map] at h
    | ok longer =>
      rw [added] at h
      cases h
      exact ⟨fragment, longer, rfl, addToBody_ok added, rfl⟩

theorem addLine_packet_ok {header : String} {site : Site}
    (h : declared.addLine (.packet header) site = .ok after) :
    ∃ packet longer, declared.packets.get? header = some packet ∧
      packet.body.add? site = some longer ∧
      after = { declared with
        packets := declared.packets.insert header { packet with body := longer } } := by
  simp only [addLine] at h
  cases found : declared.packets.get? header with
  | none => simp [found] at h
  | some packet =>
    simp only [found] at h
    cases added : addToBody packet.body site with
    | error failure => simp [added, Except.map] at h
    | ok longer =>
      rw [added] at h
      cases h
      exact ⟨packet, longer, rfl, addToBody_ok added, rfl⟩

theorem addLine_fragment {name : String} {site : Site} {fragment : Fragment} {longer : Body}
    (found : declared.fragments.get? name = some fragment)
    (added : fragment.body.add? site = some longer) :
    declared.addLine (.fragment name) site = .ok { declared with
      fragments := declared.fragments.insert name { fragment with body := longer } } := by
  simp [addLine, found, addToBody, added, Except.map]

theorem addLine_packet {header : String} {site : Site} {packet : Packet} {longer : Body}
    (found : declared.packets.get? header = some packet)
    (added : packet.body.add? site = some longer) :
    declared.addLine (.packet header) site = .ok { declared with
      packets := declared.packets.insert header { packet with body := longer } } := by
  simp [addLine, found, addToBody, added, Except.map]

end Declarations

/-! ## The work -/

theorem ends_changeDeclarations {change : Declarations → Except Failure Declarations}
    {declared : Declarations} {post : Except Failure Unit → Declarations → Journal → Prop} :
    (changeDeclarations change).Ends declared post ↔
      match change declared with
      | .ok after => post (.ok ()) after []
      | .error failure => post (.error failure) declared [] := by
  unfold changeDeclarations
  rw [Job.ends_bind, Job.ends_get]
  dsimp only
  rw [Job.ends_bind, Job.ends_ofExcept]
  cases change declared with
  | error failure => exact Iff.rfl
  | ok after => exact Iff.rfl

/-- What the change keeps, the work keeps, whether it is made or not. -/
theorem changeDeclarations_keeps {holds : Declarations → Prop}
    (change : Declarations → Except Failure Declarations) {declared : Declarations}
    (h : holds declared) (keeps : ∀ after, change declared = .ok after → holds after) :
    (changeDeclarations change).Ends declared fun _ after _ => holds after := by
  rw [ends_changeDeclarations]
  cases changed : change declared with
  | error failure => exact h
  | ok after => exact keeps after changed

section Load

variable {holds : Declarations → Prop} {mayGrow : Owner → Prop}

/-- What all changes of a load keep: `holds` of the declarations, and
`mayGrow` of every declaration that the load itself has made. -/
structure LoadKeeps (holds : Declarations → Prop) (mayGrow : Owner → Prop) : Prop where
  addFragment : ∀ declared name (site : Site) after, holds declared →
    declared.addFragment { name, line := site.line } site.raw = .ok after →
    holds after ∧ mayGrow (.fragment name)
  addPacket : ∀ declared description header (site : Site) after, holds declared →
    declared.addPacket { description, header := upper header, line := site.line } site.raw
      = .ok after →
    holds after ∧ mayGrow (.packet (upper header))
  addLine : ∀ declared owner site after, holds declared → mayGrow owner →
    declared.addLine owner site = .ok after → holds after

namespace LoadKeeps

theorem declareFragment_ends (keeps : LoadKeeps holds mayGrow) (name : String) (site : Site)
    {declared : Declarations} (h : holds declared) :
    (declareFragment name site).Ends declared fun result after _ =>
      holds after ∧ ∀ owner, result = .ok owner → mayGrow owner := by
  unfold declareFragment
  rw [Job.ends_bind, ends_changeDeclarations]
  cases change : declared.addFragment { name, line := site.line } site.raw with
  | error failure => exact ⟨h, fun _ h => nomatch h⟩
  | ok after =>
    have kept := keeps.addFragment declared name site after h change
    refine ⟨kept.1, fun owner same => ?_⟩
    cases same
    exact kept.2

theorem declarePacket_ends (keeps : LoadKeeps holds mayGrow) (description header : String)
    (site : Site) {declared : Declarations} (h : holds declared) :
    (declarePacket description header site).Ends declared fun result after _ =>
      holds after ∧ ∀ owner, result = .ok owner → mayGrow owner := by
  unfold declarePacket
  rw [Job.ends_bind, ends_changeDeclarations]
  cases change : declared.addPacket { description, header := upper header, line := site.line }
      site.raw with
  | error failure => exact ⟨h, fun _ h => nomatch h⟩
  | ok after =>
    have kept := keeps.addPacket declared description header site after h change
    refine ⟨kept.1, fun owner same => ?_⟩
    cases same
    exact kept.2

theorem declareLine_ends (keeps : LoadKeeps holds mayGrow) {owner : Owner}
    (own : mayGrow owner) (site : Site) {declared : Declarations} (h : holds declared) :
    (declareLine owner site).Ends declared fun _ after _ => holds after := by
  unfold declareLine
  exact changeDeclarations_keeps _ h fun after changed =>
    keeps.addLine declared owner site after h own changed

/-- The work keeps `holds`, and if it succeeds, it stands in a
declaration that may grow. -/
def Lands (_ : LoadKeeps holds mayGrow) (job : Job Declarations Position)
    (declared : Declarations) : Prop :=
  job.Ends declared fun result after _ =>
    holds after ∧ ∀ next, result = .ok next →
      ∀ owner, next.owner = some owner → mayGrow owner

theorem lands_fail (keeps : LoadKeeps holds mayGrow) {failure : Failure}
    {declared : Declarations} (h : holds declared) : keeps.Lands (Job.fail failure) declared :=
  ⟨h, fun _ same => nomatch same⟩

theorem lands_pure (keeps : LoadKeeps holds mayGrow) {position : Position}
    {declared : Declarations} (h : holds declared)
    (own : ∀ owner, position.owner = some owner → mayGrow owner) :
    keeps.Lands (pure position) declared := by
  refine ⟨h, fun next same => ?_⟩
  cases same
  exact own

/-- What has just been declared may grow. -/
theorem lands_declared (keeps : LoadKeeps holds mayGrow) (position : Position)
    {job : Job Declarations Owner} {declared : Declarations}
    (known : job.Ends declared fun result after _ =>
      holds after ∧ ∀ owner, result = .ok owner → mayGrow owner) :
    keeps.Lands (job >>= fun owner => pure { position with owner := some owner }) declared := by
  rw [Lands, Job.ends_bind]
  refine known.imp fun result after _ kept => ?_
  cases result with
  | error failure => exact ⟨kept.1, fun _ same => nomatch same⟩
  | ok made =>
    refine ⟨kept.1, fun next same owner owned => ?_⟩
    cases same
    cases owned
    exact kept.2 made rfl

/-- A line of a parser section: lines are added only to what has been
declared here. -/
theorem loadCode_lands (keeps : LoadKeeps holds mayGrow) (position : Position) (site : Site)
    {declared : Declarations} (h : holds declared)
    (own : ∀ owner, position.owner = some owner → mayGrow owner) :
    keeps.Lands (position.loadCode site) declared := by
  unfold Position.loadCode
  dsimp only
  split
  · split
    · exact keeps.lands_declared position (keeps.declareFragment_ends _ site h)
    · exact keeps.lands_fail h
  · split
    · split
      · exact keeps.lands_declared position (keeps.declarePacket_ends _ _ site h)
      · exact keeps.lands_fail h
    · split
      · rename_i owner owned
        rw [Lands, Job.ends_bind]
        refine (keeps.declareLine_ends (own owner owned) site h).imp fun result after _ kept => ?_
        cases result with
        | error failure => exact ⟨kept, fun _ same => nomatch same⟩
        | ok _ => exact keeps.lands_pure kept own
      · exact keeps.lands_fail h

theorem loadLine_lands (keeps : LoadKeeps holds mayGrow) (position : Position) (site : Site)
    {declared : Declarations} (h : holds declared)
    (own : ∀ owner, position.owner = some owner → mayGrow owner) :
    keeps.Lands (position.loadLine site) declared := by
  unfold Position.loadLine
  split
  · exact keeps.lands_pure h own
  · split
    · exact keeps.lands_pure h fun owner owned => nomatch owned
    · split
      · exact keeps.loadCode_lands position site h own
      · exact keeps.lands_fail h

/-- What all changes of a load keep, the load keeps. -/
theorem load_ends (keeps : LoadKeeps holds mayGrow) (source : String)
    {declared : Declarations} (h : holds declared) :
    (load source).Ends declared fun _ after _ => holds after := by
  have lines : ((codeLines source).foldlM Position.loadLine {}).Ends declared
      fun result after _ =>
        (∀ next, result = .ok next →
          holds after ∧ ∀ owner, next.owner = some owner → mayGrow owner) ∧
        ∀ failure, result = .error failure → holds after := by
    refine Job.ends_foldlM (fun (position : Position) declared =>
      holds declared ∧ ∀ owner, position.owner = some owner → mayGrow owner) holds
      ?_ (codeLines source) ⟨h, fun owner owned => by cases owned⟩
    intro position site declared known
    refine (keeps.loadLine_lands position site known.1 known.2).imp fun result after _ kept => ?_
    exact ⟨fun next same => ⟨kept.1, kept.2 next same⟩, fun _ _ => kept.1⟩
  unfold load loadLines
  rw [Job.ends_recordingFailure, Job.ends_bind]
  refine lines.imp fun result after _ kept => ?_
  cases result with
  | error failure => exact kept.2 failure rfl
  | ok position => exact (kept.1 position rfl).1

end LoadKeeps

end Load

/-! ## What is reported -/

/-- The entry tells of work that was begun or done. -/
def Entry.IsProgress (entry : Entry) : Prop :=
  ∃ line what, entry = .info line what

theorem Job.reports_progress {σ : Type} (line : Nat) (what : Progress) :
    (Job.report [.info line what] : Job σ Unit).Reports Entry.IsProgress :=
  Job.reports_report fun _ mem => ⟨line, what, List.mem_singleton.mp mem⟩

section Reports

open Job

theorem changeDeclarations_reports (change : Declarations → Except Failure Declarations) :
    (changeDeclarations change).Reports Entry.IsProgress :=
  reports_get_bind fun _ => reports_ofExcept.bind fun _ => reports_set

theorem declareFragment_reports (name : String) (site : Site) :
    (declareFragment name site).Reports Entry.IsProgress := by
  refine (changeDeclarations_reports _).bind fun _ => ?_
  exact (reports_progress _ _).bind fun _ => reports_pure

theorem declarePacket_reports (description header : String) (site : Site) :
    (declarePacket description header site).Reports Entry.IsProgress := by
  refine (changeDeclarations_reports _).bind fun _ => ?_
  exact (reports_progress _ _).bind fun _ => reports_pure

theorem Position.loadCode_reports (position : Position) (site : Site) :
    (position.loadCode site).Reports Entry.IsProgress := by
  unfold loadCode
  dsimp only
  split
  · split
    · exact (declareFragment_reports _ site).bind fun _ => reports_pure
    · exact reports_fail
  · split
    · split
      · exact (declarePacket_reports _ _ site).bind fun _ => reports_pure
      · exact reports_fail
    · split
      · exact (changeDeclarations_reports _).bind fun _ => reports_pure
      · exact reports_fail

theorem Position.loadLine_reports (position : Position) (site : Site) :
    (position.loadLine site).Reports Entry.IsProgress := by
  unfold loadLine
  split
  · exact reports_pure
  · split
    · exact reports_pure
    · split
      · exact position.loadCode_reports site
      · exact reports_fail

/-- All that loading reports is what it declares. -/
theorem loadLines_reports (code : List Site) : (loadLines code).Reports Entry.IsProgress :=
  (reports_foldlM Position.loadLine_reports code {}).bind fun _ => reports_pure

end Reports

end PacketLayout
