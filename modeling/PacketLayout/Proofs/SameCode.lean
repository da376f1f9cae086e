/-
PacketLayout.Proofs.SameCode — only the code of a source matters.

Take from each line of a source its code, and leave out the lines that
have none. Two sources for which this gives the same are built in the
same way: both or neither can be built, the tables have the same packets,
and failures and diagnostics are the same, at the lines where the same
code stands. So blank lines, comments, indentation, line endings and the
`/// ` of doc comments have no effect but on line numbers.

The lines of code are paired by their places among the lines of code. As
they are numbered in ascending order in both sources, that is a
renumbering.

* `Workspace.build_same`: a build under any renumbering.
* `Workspace.build_sameCode`: sources with the same code.
-/
import PacketLayout.Proofs.Renumbering.Compiling
import PacketLayout.Proofs.Renumbering.Loading

namespace PacketLayout

/-! ## Workspaces -/

namespace Renumbering

variable (numbers : Renumbering)

structure SameWorkspace (workspace other : Workspace) : Prop where
  declared : numbers.SameDeclarations workspace.declared other.declared
  results : workspace.results = other.results
  journal : List.Forall₂ numbers.SameEntry workspace.journal other.journal

variable {numbers}

theorem workspaceLoad_same {source source' : String}
    (same : List.Forall₂ numbers.SameSite (codeLines source) (codeLines source')) :
    Job.ResultsAlike numbers.SameFailure Eq (Workspace.load {} source).1
        (Workspace.load {} source').1 ∧
      numbers.SameWorkspace (Workspace.load {} source).2 (Workspace.load {} source').2 := by
  obtain ⟨result, declared, entries⟩ := load_same same
  exact ⟨result, declared, rfl, List.rel_append .nil entries⟩

theorem workspaceCompileAll_same {workspace other : Workspace}
    (h : numbers.SameWorkspace workspace other)
    (capital : ∀ header ∈ workspace.declared.packets.keys, Text.upper header = header) :
    Job.ResultsAlike numbers.SameFailure Eq workspace.compileAll.1 other.compileAll.1 ∧
      numbers.SameWorkspace workspace.compileAll.2 other.compileAll.2 := by
  obtain ⟨result, results, entries⟩ :=
    compileAll_same h.declared capital workspace.results other.results h.results
  exact ⟨result, h.declared, results, List.rel_append h.journal entries⟩

end Renumbering

namespace Workspace

variable {source source' : String}

/-- The headers of a source that has been loaded are in capitals. -/
theorem upper_header_of_load {loaded : Workspace}
    (h : Workspace.load {} source = (.ok (), loaded)) {header : String}
    (mem : header ∈ loaded.declared.packets.keys) : Text.upper header = header := by
  rcases load_cases source with ⟨after, here, _, partition, _⟩ | ⟨failure, after, _, _, here, _⟩
  · rw [h] at here
    cases here
    exact partition.upper_header mem
  · rw [h] at here
    cases here

/-- Builds of sources whose lines of code are the same up to a
renumbering are the same up to it. -/
theorem build_same {numbers : Renumbering}
    (same : List.Forall₂ numbers.SameSite (codeLines source) (codeLines source'))
    (timestamp timestamp' : Nat) :
    Job.ResultsAlike numbers.SameFailure
        (fun table table' => table.packets = table'.packets ∧ table.builder = table'.builder)
        (build {} source timestamp).1 (build {} source' timestamp').1 ∧
      numbers.SameWorkspace (build {} source timestamp).2 (build {} source' timestamp').2 := by
  obtain ⟨loads, workspaces⟩ := Renumbering.workspaceLoad_same same
  unfold build
  cases one : Workspace.load {} source with
  | mk answer loaded =>
    cases two : Workspace.load {} source' with
    | mk answer' loaded' =>
      rw [one, two] at loads workspaces
      dsimp only at loads workspaces
      cases loads with
      | error failed => exact ⟨.error failed, workspaces⟩
      | ok _ =>
        obtain ⟨compiles, compiled⟩ := Renumbering.workspaceCompileAll_same workspaces
          fun _ mem => upper_header_of_load one mem
        cases three : loaded.compileAll with
        | mk answer after =>
          cases four : loaded'.compileAll with
          | mk answer' after' =>
            rw [three, four] at compiles compiled
            dsimp only at compiles compiled ⊢
            simp only [three, four]
            cases compiles with
            | error failed => exact ⟨.error failed, compiled⟩
            | ok _ =>
              have table := Renumbering.tablePackets_same numbers compiled.declared after.results
                timestamp timestamp'
              refine ⟨.ok ⟨?_, rfl⟩, compiled⟩
              rw [Workspace.table, Workspace.table, ← compiled.results]
              exact table

/-! ## The same code -/

/-- The numbers of one line of code: it has the same place among the
lines of code in both sources. -/
def SameCodeLine (source source' : String) (number number' : Nat) : Prop :=
  ∃ index : Nat, ((codeLines source)[index]?).map Site.line = some number ∧
    ((codeLines source')[index]?).map Site.line = some number'

/-- A later line of code has the greater number. -/
theorem line_lt_iff {index later line line' : Nat}
    (here : ((codeLines source)[index]?).map Site.line = some line)
    (there : ((codeLines source)[later]?).map Site.line = some line') :
    line < line' ↔ index < later := by
  obtain ⟨site, found, rfl⟩ := Option.map_eq_some_iff.mp here
  obtain ⟨site', found', rfl⟩ := Option.map_eq_some_iff.mp there
  obtain ⟨short, rfl⟩ := List.getElem?_eq_some_iff.mp found
  obtain ⟨short', rfl⟩ := List.getElem?_eq_some_iff.mp found'
  have ascending := List.pairwise_iff_getElem.mp (Layout.ascending_codeLines source)
  rcases Nat.lt_trichotomy index later with below | rfl | above
  · have lines := ascending index later short short' below
    omega
  · omega
  · have lines := ascending later index short' short above
    omega

/-- The renumbering that leads from the one source to the other. -/
def renumbering (source source' : String) : Renumbering where
  pairs := SameCodeLine source source'
  ordered := by
    rintro _ _ _ _ ⟨index, here, here'⟩ ⟨later, there, there'⟩
    rw [line_lt_iff here there, line_lt_iff here' there']

/-- The texts of the lines of code. -/
theorem raws_codeLines (source : String) :
    (codeLines source).map Site.raw
      = ((linesFrom [] source.toList).filterMap code?).map String.ofList := by
  have texts : (sourceLines source).map Prod.fst = linesFrom [] source.toList := by
    rw [sourceLines, List.zipIdx_map_fst]
  rw [codeLines, ← texts, List.map_filterMap, List.filterMap_map, List.map_filterMap]
  refine List.filterMap_congr fun entry _ => ?_
  obtain ⟨line, number⟩ := entry
  simp only [Option.map_map, Function.comp_def]

theorem codeLines_same
    (same : (linesFrom [] source.toList).filterMap code?
      = (linesFrom [] source'.toList).filterMap code?) :
    List.Forall₂ (renumbering source source').SameSite (codeLines source)
      (codeLines source') := by
  have raws : (codeLines source).map Site.raw = (codeLines source').map Site.raw := by
    rw [raws_codeLines, raws_codeLines, same]
  have lengths : (codeLines source).length = (codeLines source').length := by
    simpa using congrArg List.length raws
  refine List.forall₂_iff_get.mpr ⟨lengths, fun index short short' => ⟨⟨index, ?_, ?_⟩, ?_⟩⟩
  · rw [List.getElem?_eq_getElem short]
    rfl
  · rw [List.getElem?_eq_getElem short']
    rfl
  · have here := congrArg (·[index]?) raws
    simpa [short, short'] using here

/-- Only the code matters: if what is left of the lines of two sources,
each without its comment and without the white space around it, is the
same where there is anything left, then both are built in the same way.
Both have a table with the same packets, or both fail with the same cause
and the same text at the same line of code; and up to the numbers of
these lines they report the same. -/
theorem build_sameCode (source source' : String) (timestamp timestamp' : Nat)
    (same : (linesFrom [] source.toList).filterMap code?
      = (linesFrom [] source'.toList).filterMap code?) :
    Job.ResultsAlike
        (fun failure failure' =>
          failure.cause = failure'.cause ∧ failure.site.raw = failure'.site.raw ∧
            SameCodeLine source source' failure.site.line failure'.site.line)
        (fun table table' => table.packets = table'.packets ∧ table.builder = table'.builder)
        (build {} source timestamp).1 (build {} source' timestamp').1 ∧
    List.Forall₂ (fun diagnostic diagnostic' =>
        diagnostic.notice = diagnostic'.notice ∧ diagnostic.raw = diagnostic'.raw ∧
          SameCodeLine source source' diagnostic.line diagnostic'.line)
      (build {} source timestamp).2.journal.diagnostics
      (build {} source' timestamp').2.journal.diagnostics := by
  obtain ⟨result, after⟩ := build_same (codeLines_same same) timestamp timestamp'
  refine ⟨?_, (Renumbering.diagnostics_same after.journal).imp fun _ _ same =>
    ⟨same.notice, same.raw, same.line⟩⟩
  exact result.imp (fun _ _ failed => ⟨failed.cause, failed.site.raw, failed.site.line⟩)
    fun _ _ tables => tables

/-- A group that is never closed, with a comment and a blank line before
it. -/
def spacedSource : String :=
  "<parser>\nPacket[Walk]:6f // on foot\n\n\t+ REP\n</parser>\n"

/-- The same code in doc comments, with other line endings. -/
def docSource : String :=
  "/// <parser>\r\n/// Packet[Walk]:6f\r\n/// + REP\r\n/// </parser>"

/-- The group begins on line 4 of the one and on line 3 of the other
source. -/
theorem build_sameCode_spaced :
    (linesFrom [] spacedSource.toList).filterMap code?
      = (linesFrom [] docSource.toList).filterMap code? ∧
    (build {} spacedSource 0).1 = .error (Cause.unclosedRepeat.atSite ⟨4, "+ REP"⟩) ∧
    (build {} docSource 0).1 = .error (Cause.unclosedRepeat.atSite ⟨3, "+ REP"⟩) ∧
    SameCodeLine spacedSource docSource 4 3 ∧
    List.Forall₂ (fun diagnostic diagnostic' =>
        diagnostic.notice = diagnostic'.notice ∧ diagnostic.raw = diagnostic'.raw ∧
          SameCodeLine spacedSource docSource diagnostic.line diagnostic'.line)
      (build {} spacedSource 0).2.journal.diagnostics
      (build {} docSource 0).2.journal.diagnostics := by
  have same : (linesFrom [] spacedSource.toList).filterMap code?
      = (linesFrom [] docSource.toList).filterMap code? := by decide +kernel
  have failed : (build {} spacedSource 0).1
      = .error (Cause.unclosedRepeat.atSite ⟨4, "+ REP"⟩) := by decide +kernel
  have failed' : (build {} docSource 0).1
      = .error (Cause.unclosedRepeat.atSite ⟨3, "+ REP"⟩) := by decide +kernel
  have builds := build_sameCode spacedSource docSource 0 0 same
  have results := builds.1
  rw [failed, failed'] at results
  cases results with
  | error h => exact ⟨same, failed, failed', h.2.2, builds.2⟩

end Workspace

end PacketLayout
