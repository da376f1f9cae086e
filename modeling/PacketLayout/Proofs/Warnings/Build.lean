/-
PacketLayout.Proofs.Warnings.Build — the warnings of a build.

Loading reports what it declares and nothing else, and compiling reports
every warning once. So a build that succeeds has recorded the warnings that
its declarations call for, and these alone. How many they are can be read
off the lines that are no references: it is the same for any other layout
with these lines, however its fragments are cut and referred to, and in
whatever order things are declared.

* `load_warnings`: loading gives none.
* `Declarations.SameLines.length_warnings`: the same lines give as many.
* `Workspace.build_warnings`: the warnings of a build, and their number.
-/
import PacketLayout.Proofs.Warnings.Raised

namespace PacketLayout

open Job

/-! ## Loading -/

theorem warnings_of_progress {journal : Journal} (h : ∀ entry ∈ journal, entry.IsProgress) :
    journal.warnings = [] := by
  induction journal with
  | nil => rfl
  | cons entry rest ih =>
    obtain ⟨line, what, rfl⟩ := h _ List.mem_cons_self
    exact ih fun other mem => h other (List.mem_cons_of_mem _ mem)

/-- Loading gives no warnings, whether it succeeds or fails. -/
theorem load_warnings (source : String) (declared : Declarations) :
    (load source).Ends declared fun _ _ entries => entries.warnings = [] := by
  unfold load
  rw [ends_recordingFailure]
  have quiet : (loadLines (codeLines source)).Ends declared fun _ _ entries =>
      entries.warnings = [] :=
    warnings_of_progress (loadLines_reports (codeLines source) declared)
  refine quiet.imp fun result _ entries none => ?_
  cases result with
  | ok _ => exact none
  | error failure =>
    dsimp only
    rw [Journal.warnings_append, none]
    rfl

/-! ## The number of warnings -/

/-- The declarations are made of the same lines, apart from references: the
fragments taken together, and each packet. The order does not matter. -/
structure Declarations.SameLines (declared other : Declarations) : Prop where
  fragments : (declared.fragments.values.flatMap fun fragment => fragment.body.ownTexts).Perm
    (other.fragments.values.flatMap fun fragment => fragment.body.ownTexts)
  packets : (declared.packets.values.map fun packet => packet.body.ownTexts).Perm
    (other.packets.values.map fun packet => packet.body.ownTexts)

theorem length_fragmentWarnings (fragments : List Fragment) :
    (fragments.flatMap Fragment.warnings).length
      = lineWarningCount (fragments.flatMap fun fragment => fragment.body.ownTexts) := by
  induction fragments with
  | nil => rfl
  | cons fragment rest ih =>
    have here := fragment.length_warnings
    unfold lineWarningCount at ih here ⊢
    rw [List.flatMap_cons, List.flatMap_cons, List.flatMap_append, List.length_append,
      List.length_append, here, ih]

/-- As many as there are marks, one for each warning of each packet. -/
theorem length_packetWarnings (packets : List Packet) :
    (packets.flatMap Packet.warnings).length
      = ((packets.map fun packet => packet.body.ownTexts).flatMap fun texts =>
          List.replicate (packetWarningCount texts) ()).length := by
  induction packets with
  | nil => rfl
  | cons packet rest ih =>
    rw [List.flatMap_cons, List.map_cons, List.flatMap_cons, List.length_append,
      List.length_append, List.length_replicate, packet.length_warnings, ih]

/-- The same lines give as many warnings. -/
theorem Declarations.SameLines.length_warnings {declared other : Declarations}
    (same : declared.SameLines other) : declared.warnings.length = other.warnings.length := by
  have fragments := (same.fragments.flatMap_right fun text => Site.remarks ⟨0, text⟩).length_eq
  have packets := (same.packets.flatMap_right fun texts =>
    List.replicate (packetWarningCount texts) ()).length_eq
  rw [warnings, warnings, List.length_append, List.length_append, length_fragmentWarnings,
    length_fragmentWarnings, length_packetWarnings, length_packetWarnings, packets]
  exact congrArg (· + _) fragments

/-! ## Building -/

namespace Workspace

variable {source : String} {timestamp : Nat} {table : SignatureTable}

theorem build_warned (built : (build {} source timestamp).1 = .ok table) :
    (build {} source timestamp).2.journal.warnings.Perm
      (build {} source timestamp).2.declared.warnings := by
  obtain ⟨loaded, same, _, _, succeeded, left, _⟩ := build_steps built
  have reached : Reached Operation.Declares loaded := same ▸ Reached.start.perform trivial
  obtain ⟨fresh, regular, _⟩ := declares_of_reached reached
  have quiet : loaded.journal.warnings = [] := by
    rw [same]
    exact load_warnings source {}
  have reported : (PacketLayout.compileAll loaded.declared loaded.results).entries.warnings.Perm
      loaded.declared.warnings := by
    rw [fresh]
    exact compileAll_warnings regular () (fresh ▸ succeeded)
  have split : (loaded.perform .compileAll).journal.warnings
      = (PacketLayout.compileAll loaded.declared loaded.results).entries.warnings := by
    change Journal.warnings (loaded.journal ++ _) = _
    rw [Journal.warnings_append, quiet, List.nil_append]
  rw [left, split]
  exact reported

/-- A build that succeeds records the warnings that its declarations call
for, each once: those of the field lines of every fragment and packet, at
their numbers, and those of the branches of every packet. Any other build
that succeeds on the same lines records as many: it does not matter how the
lines of fragments are shared out, what is referred to, and in which order
things are declared. -/
theorem build_warnings (built : (build {} source timestamp).1 = .ok table) :
    (build {} source timestamp).2.journal.warnings.Perm
      (build {} source timestamp).2.declared.warnings ∧
    ∀ (other : String) (time : Nat) (second : SignatureTable),
      (build {} other time).1 = .ok second →
      (build {} source timestamp).2.declared.SameLines (build {} other time).2.declared →
      (build {} source timestamp).2.journal.warningCount
        = (build {} other time).2.journal.warningCount := by
  have warned := build_warned built
  refine ⟨warned, fun other time second otherBuilt same => ?_⟩
  rw [Journal.warningCount, Journal.warningCount, warned.length_eq,
    (build_warned otherBuilt).length_eq, same.length_warnings]

/-- A fragment that is referred to twice, by the packet and by a fragment
before it. Each of them has a line with a warning, and the packet has a
blank branch. -/
def sharedSource : String :=
  "<parser>\nFragment[A]\nx:$1:Q\n+ Fragment[B]\nFragment[B]\ny:$2:Q\n"
    ++ "Packet[P]:01\n+ Fragment[A]\n+ Fragment[B]\nSubCate[b]\nSubCate[c]\n</parser>"

/-- The same lines in one fragment, which nothing refers to. -/
def regroupedSource : String :=
  "<parser>\nPacket[P]:01\nSubCate[b]\nSubCate[c]\nFragment[C]\ny:$2:Q\nx:$1:Q\n</parser>"

/-- Each warning is raised once, and there are as many of them when the
fragments are put together. -/
theorem build_warnings_shared :
    (∃ table, (build {} sharedSource 0).1 = .ok table) ∧
    (build {} sharedSource 0).2.journal.warnings.Perm
      [⟨3, .warning (.unknownQualifier "Q"), some "Q"⟩,
        ⟨6, .warning (.unknownQualifier "Q"), some "Q"⟩,
        ⟨10, .warning .blankBranch, some "SubCate[b]"⟩,
        ⟨11, .warning .branchesIgnored, some "SubCate[c]"⟩] ∧
    (build {} sharedSource 0).2.journal.warningCount
      = (build {} regroupedSource 0).2.journal.warningCount := by
  have exists_of : ∀ {result : Except Failure SignatureTable}, result.isOk = true →
      ∃ table, result = .ok table := by
    intro result succeeds
    cases result with
    | ok table => exact ⟨table, rfl⟩
    | error failure => cases succeeds
  obtain ⟨table, built⟩ : ∃ table, (build {} sharedSource 0).1 = .ok table :=
    exists_of (by decide +kernel)
  obtain ⟨second, otherBuilt⟩ : ∃ table, (build {} regroupedSource 0).1 = .ok table :=
    exists_of (by decide +kernel)
  obtain ⟨warned, counted⟩ := build_warnings built
  refine ⟨⟨table, built⟩, warned.trans (.of_eq ?_), counted _ 0 second otherBuilt ⟨?_, ?_⟩⟩
  · decide +kernel
  · decide +kernel
  · decide +kernel

end Workspace

end PacketLayout
