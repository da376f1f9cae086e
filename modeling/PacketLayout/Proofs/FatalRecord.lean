/-
PacketLayout.Proofs.FatalRecord — a failure is recorded once, at the end.

Failures come up deep inside the work and are passed on outwards, while
progress and warnings are reported on every level. Only the outermost
work, loading and compiling everything, records the failure that ended
it. So a run has at most one fatal record; it has one exactly if it
fails, and nothing is reported behind it.

* `loadLines_quiet`, `compileInOrder_quiet`: the inner work records no
  failure.
* `Recorded`: how the entries of a run tell its end.
* `Workspace.build_records`: the fatal records of a build mirror its
  result.
-/
import PacketLayout.Proofs.Expansion.Footprint
import PacketLayout.Proofs.Session

namespace PacketLayout

open Job

variable {σ α : Type}

/-! ## Quiet work -/

theorem Journal.Quiet.append {first second : Journal} (one : first.Quiet) (two : second.Quiet) :
    Journal.Quiet (first ++ second) := by
  intro entry mem
  rcases List.mem_append.mp mem with mem | mem
  · exact one entry mem
  · exact two entry mem

/-- A quiet journal has no fatal diagnostic. -/
theorem Journal.Quiet.diagnostics {journal : Journal} (quiet : journal.Quiet) :
    ∀ diagnostic ∈ journal.diagnostics, diagnostic.isFatal = false := by
  intro diagnostic mem
  obtain ⟨entry, there, shown⟩ := List.mem_filterMap.mp mem
  have known := quiet entry there
  rwa [Entry.Quiet, Entry.isFatal, shown] at known

/-- To report nothing but quiet entries allows all that compiling does. -/
theorem quiet_footprint :
    Footprint (fun _ => True) fun _ entries _ => ∀ entry ∈ entries, entry.Quiet where
  adds := reports_addsUp Entry.Quiet
  reports _ _ quiet := quiet
  keeps _ _ _ _ _ mem := nomatch mem

theorem compileInOrder_quiet (declared : Declarations) :
    (compileInOrder declared).Reports Entry.Quiet := by
  have fragments : ∀ fragment, (compileDeclared declared fragment).Reports Entry.Quiet :=
    fun fragment => compileDeclared_has quiet_footprint fun _ _ => trivial
  have packets : ∀ header, (compilePacket declared header).Reports Entry.Quiet :=
    fun header => compilePacket_has quiet_footprint fun _ _ _ _ => trivial
  exact (reports_forM fragments _).bind fun _ => reports_forM packets _

theorem loadLines_quiet (code : List Site) : (loadLines code).Reports Entry.Quiet := by
  refine (loadLines_reports code).imp ?_
  rintro _ ⟨line, what, rfl⟩
  exact Entry.quiet_info line what

/-! ## The record of a run -/

/-- The entries tell how the work ended: a failure is recorded by the
last entry, and no other entry records one. -/
def Recorded : Except Failure α → Journal → Prop
  | .ok _, entries => entries.Quiet
  | .error failure, entries => ∃ earlier, entries = earlier ++ [.fatal failure] ∧
      Journal.Quiet earlier

namespace Recorded

variable {result : Except Failure α} {entries : Journal}

/-- What is quiet may come before. -/
theorem after {earlier : Journal} (quiet : earlier.Quiet) (h : Recorded result entries) :
    Recorded result (earlier ++ entries) := by
  cases result with
  | ok answer => exact quiet.append h
  | error failure =>
    obtain ⟨inner, rfl, also⟩ := h
    exact ⟨earlier ++ inner, by rw [List.append_assoc], quiet.append also⟩

/-- There is a fatal diagnostic exactly if the work has failed. -/
theorem error_iff (h : Recorded result entries) :
    (∃ failure, result = .error failure) ↔
      ∃ diagnostic ∈ entries.diagnostics, diagnostic.isFatal = true := by
  cases result with
  | ok answer =>
    constructor
    · rintro ⟨failure, same⟩
      cases same
    · rintro ⟨diagnostic, mem, fatal⟩
      rw [h.diagnostics diagnostic mem] at fatal
      cases fatal
  | error failure =>
    obtain ⟨earlier, rfl, _⟩ := h
    refine ⟨fun _ => ⟨.ofFailure failure, ?_, rfl⟩, fun _ => ⟨failure, rfl⟩⟩
    rw [Journal.diagnostics_append]
    exact List.mem_append_right _ (List.mem_singleton_self _)

end Recorded

/-- Quiet work that has its failure recorded, and nothing else. -/
theorem recordingFailure_recorded {job : Job σ α} (quiet : job.Reports Entry.Quiet) (state : σ) :
    Recorded (job.recordingFailure state).result (job.recordingFailure state).entries := by
  have here := quiet state
  unfold Job.recordingFailure
  cases run : job state with
  | mk result left entries =>
    rw [run] at here
    cases result with
    | ok answer => exact here
    | error failure => exact ⟨entries, rfl, here⟩

/-! ## Building -/

namespace Workspace

/-- A build adds entries to the journal that tell how it ended. -/
theorem build_recorded (workspace : Workspace) (source : String) (timestamp : Nat) :
    ∃ added, (workspace.build source timestamp).2.journal = workspace.journal ++ added ∧
      Recorded (workspace.build source timestamp).1 added := by
  have loading := recordingFailure_recorded (loadLines_quiet (codeLines source))
    workspace.declared
  unfold build Workspace.load onDeclarations PacketLayout.load
  cases loaded : (loadLines (codeLines source)).recordingFailure workspace.declared with
  | mk result declared entries =>
    rw [loaded] at loading
    cases result with
    | error failure => exact ⟨entries, rfl, loading⟩
    | ok answer =>
      have compiling := recordingFailure_recorded (compileInOrder_quiet declared)
        workspace.results
      dsimp only [Workspace.compileAll, onResults, PacketLayout.compileAll]
      cases compiled : (compileInOrder declared).recordingFailure workspace.results with
      | mk result results more =>
        rw [compiled] at compiling
        cases result with
        | error failure =>
          exact ⟨entries ++ more, by simp, Recorded.after loading compiling⟩
        | ok answer => exact ⟨entries ++ more, by simp, Recorded.after loading compiling⟩

/-- The fatal records of a build mirror its result, whatever the source
and the workspace: there is one exactly if the build fails, and then it is
the last diagnostic and tells the failure with its line and its text. -/
theorem build_records (workspace : Workspace) (source : String) (timestamp : Nat) :
    ∃ added : Journal,
      (workspace.build source timestamp).2.journal = workspace.journal ++ added ∧
      ((∃ failure, (workspace.build source timestamp).1 = .error failure) ↔
        ∃ diagnostic ∈ added.diagnostics, diagnostic.isFatal = true) ∧
      ∀ failure, (workspace.build source timestamp).1 = .error failure →
        ∃ earlier last, added.diagnostics = earlier ++ [last] ∧
          (∀ diagnostic ∈ earlier, diagnostic.isFatal = false) ∧
          last.isFatal = true ∧ last.line = failure.site.line ∧
          last.notice.message = failure.cause.message ∧ last.raw = some failure.site.raw := by
  obtain ⟨added, journal, recorded⟩ := build_recorded workspace source timestamp
  refine ⟨added, journal, recorded.error_iff, fun failure failed => ?_⟩
  rw [failed] at recorded
  obtain ⟨earlier, rfl, quiet⟩ := recorded
  refine ⟨earlier.diagnostics, .ofFailure failure, ?_, quiet.diagnostics, rfl, rfl, rfl, rfl⟩
  exact Journal.diagnostics_append earlier _

/-- A fragment that refers to itself. -/
def ringSource : String :=
  "<parser>\nFragment[Ring]\n+ Fragment[Ring]\n</parser>\n"

/-- The small session goes on with a fragment that refers to itself. The
failure is the last diagnostic, behind those of the session. -/
theorem build_records_ring :
    (sample.build ringSource 0).1
      = .error ((Cause.fragmentCycle "Ring" ["Ring", "Ring"]).atSite ⟨3, "+ Fragment[Ring]"⟩) ∧
    ∃ earlier last,
      (sample.build ringSource 0).2.journal.diagnostics
          = sample.journal.diagnostics ++ (earlier ++ [last]) ∧
      last.isFatal = true ∧ last.line = 3 ∧ last.raw = some "+ Fragment[Ring]" := by
  have failed : (sample.build ringSource 0).1
      = .error ((Cause.fragmentCycle "Ring" ["Ring", "Ring"]).atSite ⟨3, "+ Fragment[Ring]"⟩) := by
    decide +kernel
  obtain ⟨added, journal, _, record⟩ := build_records sample ringSource 0
  obtain ⟨earlier, last, split, _, fatal, line, _, raw⟩ := record _ failed
  refine ⟨failed, earlier, last, ?_, fatal, line, raw⟩
  rw [journal, Journal.diagnostics_append, split]

end Workspace

end PacketLayout
