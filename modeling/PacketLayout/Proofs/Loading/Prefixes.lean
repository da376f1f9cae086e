/-
PacketLayout.Proofs.Loading.Prefixes — a source that fails is loaded up to
the line that fails.

A line of code is loaded as a whole or not at all: a line that is refused
is itself to blame, and nothing has been declared, added or reported on
its account. So a run over lines of code that fails has come as far as the
run over the lines before the one it fails at, and that run succeeds.

What the lines before it are does not depend on how they are cut off:
`firstLines` cuts a text behind a line break, and any other text with the
same lines comes to the same.

* `Position.loadLine_refuses`: one line.
* `Job.foldlM_failed`: a run that fails.
* `codeLines_of_take`: the code of the first lines of a source.
* `Workspace.load_stops`: a source, loaded into any workspace.
-/
import PacketLayout.Proofs.Loading.Partition
import PacketLayout.Proofs.Permanence

namespace PacketLayout

open Text Layout

/-! ## Lines that are refused -/

/-- If the work fails, the place is to blame, and nothing has been done or
reported. -/
structure Job.Refuses {σ α : Type} (job : Job σ α) (site : Site) : Prop where
  clean : job.FailsClean
  blames : ∀ state failure, (job state).result = .error failure → failure.site = site

section Refuses

variable {α β σ : Type} {site : Site}

theorem Job.refuses_pure (answer : α) : (Pure.pure answer : Job σ α).Refuses site where
  clean _ _ same := nomatch same
  blames _ _ same := nomatch same

theorem Job.refuses_fail (cause : Cause) :
    (Job.fail (cause.atSite site) : Job σ α).Refuses site where
  clean _ _ _ := ⟨rfl, rfl⟩
  blames _ _ same := by
    cases same
    rfl

/-- What cannot fail may come behind. -/
theorem Job.Refuses.bind {first : Job σ β} {next : β → Job σ α} (refuses : first.Refuses site)
    (sure : ∀ answer state, ∃ later, (next answer state).result = .ok later) :
    (first >>= next).Refuses site where
  clean := refuses.clean.bind sure
  blames state failure failed := by
    cases ran : first state with
    | mk result left entries =>
      cases result with
      | error other =>
        rw [Job.bind_run_error ran] at failed
        cases failed
        exact refuses.blames state failure (by rw [ran])
      | ok answer =>
        obtain ⟨later, succeeds⟩ := sure answer left
        rw [Job.bind_run_ok ran, succeeds] at failed
        cases failed

theorem changeDeclarations_refuses {change : Declarations → Except Failure Declarations}
    (blames : ∀ declared failure, change declared = .error failure → failure.site = site) :
    (changeDeclarations change).Refuses site where
  clean := changeDeclarations_failsClean change
  blames declared failure failed := by
    have ends : (changeDeclarations change).Ends declared fun result _ _ =>
        result = .error failure := failed
    rw [ends_changeDeclarations] at ends
    cases changed : change declared with
    | ok after => rw [changed] at ends; cases ends
    | error other =>
      rw [changed] at ends
      cases ends
      exact blames declared failure changed

end Refuses

/-! ## One line -/

section Lines

variable {site : Site}

theorem declareFragment_refuses (name : String) : (declareFragment name site).Refuses site := by
  refine (changeDeclarations_refuses fun declared failure failed => ?_).bind fun _ _ => ⟨_, rfl⟩
  unfold Declarations.addFragment at failed
  split at failed
  · cases failed
    rfl
  · cases failed

theorem declarePacket_refuses (description header : String) :
    (declarePacket description header site).Refuses site := by
  refine (changeDeclarations_refuses fun declared failure failed => ?_).bind fun _ _ => ⟨_, rfl⟩
  unfold Declarations.addPacket at failed
  split at failed
  · cases failed
    rfl
  · cases failed

theorem Declarations.addToBody_blames {body : Body} {failure : Failure}
    (failed : addToBody body site = .error failure) : failure.site = site := by
  unfold addToBody at failed
  split at failed
  · cases failed
  · cases failed
    rfl

theorem Declarations.addLine_blames {declared : Declarations} {owner : Owner} {failure : Failure}
    (failed : declared.addLine owner site = .error failure) : failure.site = site := by
  have body {body : Body} {change : Body → Declarations}
      (failed : (addToBody body site).map change = .error failure) : failure.site = site := by
    cases added : addToBody body site with
    | ok longer => rw [added] at failed; cases failed
    | error other =>
      rw [added] at failed
      cases failed
      exact addToBody_blames added
  unfold addLine at failed
  split at failed <;> split at failed
  · exact body failed
  · cases failed
    rfl
  · exact body failed
  · cases failed
    rfl

theorem declareLine_refuses (owner : Owner) : (declareLine owner site).Refuses site :=
  changeDeclarations_refuses fun _ _ => Declarations.addLine_blames

namespace Position

theorem loadCode_refuses (position : Position) (site : Site) :
    (position.loadCode site).Refuses site := by
  unfold loadCode
  dsimp only
  split
  · split
    · exact (declareFragment_refuses _).bind fun _ _ => ⟨_, rfl⟩
    · exact Job.refuses_fail _
  · split
    · split
      · exact (declarePacket_refuses _ _).bind fun _ _ => ⟨_, rfl⟩
      · exact Job.refuses_fail _
    · split
      · exact (declareLine_refuses _).bind fun _ _ => ⟨_, rfl⟩
      · exact Job.refuses_fail _

/-- A line is loaded as a whole or not at all. -/
theorem loadLine_refuses (position : Position) (site : Site) :
    (position.loadLine site).Refuses site := by
  unfold loadLine
  split
  · exact Job.refuses_pure _
  · split
    · exact Job.refuses_pure _
    · split
      · exact position.loadCode_refuses site
      · exact Job.refuses_fail _

end Position

end Lines

/-! ## A run over lines -/

/-- A run whose steps are done as a whole or not at all fails at one of
them, and the run over those before it comes to the same. -/
theorem Job.foldlM_failed {σ β : Type} {step : β → Site → Job σ β}
    (refuses : ∀ made site, (step made site).Refuses site) {sites : List Site} {made : β}
    {state left : σ} {failure : Failure} {entries : Journal}
    (failed : sites.foldlM step made state = ⟨.error failure, left, entries⟩) :
    ∃ done rest later, sites = done ++ failure.site :: rest ∧
      done.foldlM step made state = ⟨.ok later, left, entries⟩ := by
  induction sites generalizing made state entries with
  | nil => cases failed
  | cons site sites ih =>
    rw [List.foldlM_cons] at failed
    cases first : step made site state with
    | mk result next reported =>
      cases result with
      | error other =>
        rw [bind_run_error first] at failed
        cases failed
        have blamed := (refuses made site).blames state failure (by rw [first])
        have clean := (refuses made site).clean state
        unfold Job.Ends at clean
        rw [first] at clean
        obtain ⟨rfl, rfl⟩ := clean failure rfl
        exact ⟨[], sites, made, by rw [blamed]; rfl, rfl⟩
      | ok answer =>
        rw [bind_run_ok first] at failed
        cases second : sites.foldlM step answer next with
        | mk result last more =>
          rw [second] at failed
          cases failed
          obtain ⟨done, rest, later, rfl, ran⟩ := ih second
          refine ⟨site :: done, rest, later, rfl, ?_⟩
          rw [List.foldlM_cons, bind_run_ok first, ran]

/-! ## The first lines of a source -/

/-- The first lines of a text, each with its line break. -/
def firstLinesFrom : Nat → List Char → List Char
  | 0, _ => []
  | _ + 1, [] => []
  | number + 1, c :: rest =>
    c :: firstLinesFrom (if c = '\n' then number else number + 1) rest

/-- A source cut off behind some of its lines. -/
def firstLines (number : Nat) (source : String) : String :=
  String.ofList (firstLinesFrom number source.toList)

theorem firstLinesFrom_prefix (number : Nat) (text : List Char) :
    firstLinesFrom number text <+: text := by
  induction text generalizing number with
  | nil => cases number <;> exact List.prefix_rfl
  | cons c rest ih =>
    cases number with
    | zero => exact List.nil_prefix
    | succ number => exact List.cons_prefix_cons.mpr ⟨rfl, ih _⟩

/-- The line being read is the first one. -/
theorem linesFrom_firstLinesFrom (number : Nat) (current text : List Char) :
    linesFrom current (firstLinesFrom (number + 1) text)
      = (linesFrom current text).take (number + 1) := by
  induction text generalizing number current with
  | nil =>
    rw [firstLinesFrom, linesFrom]
    split <;> simp
  | cons c rest ih =>
    rw [firstLinesFrom]
    by_cases newline : c = '\n'
    · subst newline
      rw [if_pos rfl, linesFrom_newline, linesFrom_newline, List.take_succ_cons]
      cases number with
      | zero => simp [firstLinesFrom, linesFrom]
      | succ number => rw [ih]
    · rw [if_neg newline, linesFrom_other newline, linesFrom_other newline, ih]

/-- The cut leaves the lines in front of it as they are. -/
theorem linesFrom_firstLines (number : Nat) (source : String) :
    linesFrom [] (firstLines number source).toList
      = (linesFrom [] source.toList).take number := by
  rw [firstLines, String.toList_ofList]
  cases number with
  | zero => simp [firstLinesFrom, linesFrom]
  | succ number => exact linesFrom_firstLinesFrom number [] source.toList

/-- The code of numbered lines. -/
def codeOfLines (lines : List (List Char × Nat)) : List Site :=
  lines.filterMap fun (line, number) => (code? line).map fun code => ⟨number, String.ofList code⟩

theorem line_of_mem_codeOfLines {lines : List (List Char)} {start : Nat} {site : Site}
    (mem : site ∈ codeOfLines (lines.zipIdx start)) :
    start ≤ site.line ∧ site.line < start + lines.length := by
  obtain ⟨⟨line, number⟩, there, found⟩ := List.mem_filterMap.mp mem
  obtain ⟨code, _, rfl⟩ := Option.map_eq_some_iff.mp found
  exact ⟨List.le_snd_of_mem_zipIdx there, List.snd_lt_add_of_mem_zipIdx there⟩

/-- The code of the first lines is the code under their numbers. -/
theorem codeLines_of_take {source cut : String} {number : Nat}
    (same : linesFrom [] cut.toList = (linesFrom [] source.toList).take number) :
    codeLines cut = (codeLines source).filter fun site => site.line ≤ number := by
  generalize lines : linesFrom [] source.toList = all at same
  have first : codeLines cut = codeOfLines ((all.take number).zipIdx 1) := by
    rw [← same]
    rfl
  have whole : codeLines source = codeOfLines ((all.take number).zipIdx 1)
      ++ codeOfLines ((all.drop number).zipIdx (1 + (all.take number).length)) := by
    unfold codeOfLines
    rw [← List.filterMap_append, ← List.zipIdx_append, List.take_append_drop, ← lines]
    rfl
  rw [first, whole, List.filter_append, List.filter_eq_self.mpr, List.filter_eq_nil_iff.mpr,
    List.append_nil]
  · intro site mem
    have bounds := line_of_mem_codeOfLines mem
    rw [List.length_drop, List.length_take] at bounds
    simp only [decide_eq_true_eq]
    omega
  · intro site mem
    have bounds := line_of_mem_codeOfLines mem
    rw [List.length_take] at bounds
    simp only [decide_eq_true_eq]
    omega

/-- The code in front of a line is that of the lines before it. -/
theorem codeLines_before {source cut : String} {done rest : List Site} {site : Site}
    (split : codeLines source = done ++ site :: rest)
    (same : linesFrom [] cut.toList = (linesFrom [] source.toList).take (site.line - 1)) :
    codeLines cut = done := by
  have ascending := ascending_codeLines source
  have least : 1 ≤ site.line := (mem_codeLines_iff.mp (by rw [split]; simp)).1
  rw [split, List.pairwise_append, List.pairwise_cons] at ascending
  obtain ⟨_, ⟨later, _⟩, earlier⟩ := ascending
  rw [codeLines_of_take same, split, List.filter_append, List.filter_eq_self.mpr,
    List.filter_eq_nil_iff.mpr, List.append_nil]
  · intro other mem
    rcases List.mem_cons.mp mem with rfl | mem
    · simp only [decide_eq_true_eq]
      omega
    · have below := later other mem
      simp only [decide_eq_true_eq]
      omega
  · intro other mem
    have below := earlier other mem site (by simp)
    simp only [decide_eq_true_eq]
    omega

/-! ## A whole source -/

/-- Lines of code that fail are those before one of them, which load, and
then the one that is to blame. -/
theorem loadLines_failed {code : List Site} {declared left : Declarations} {failure : Failure}
    {entries : Journal} (failed : loadLines code declared = ⟨.error failure, left, entries⟩) :
    ∃ done rest, code = done ++ failure.site :: rest ∧
      loadLines done declared = ⟨.ok (), left, entries⟩ := by
  unfold loadLines at failed ⊢
  cases ran : code.foldlM Position.loadLine {} declared with
  | mk result last reported =>
    cases result with
    | ok position =>
      rw [Job.bind_run_ok ran] at failed
      cases failed
    | error other =>
      rw [Job.bind_run_error ran] at failed
      cases failed
      obtain ⟨done, rest, later, split, loaded⟩ := Job.foldlM_failed Position.loadLine_refuses ran
      refine ⟨done, rest, split, ?_⟩
      rw [Job.bind_run_ok loaded, Job.pure_run, List.append_nil]

namespace Workspace

/-- The workspace with other declarations and more entries. -/
def afterLoading (workspace : Workspace) (declared : Declarations) (entries : Journal) :
    Workspace :=
  { workspace with declared := declared, journal := workspace.journal ++ entries }

theorem load_eq_ok {workspace : Workspace} {source : String} {left : Declarations}
    {entries : Journal}
    (loaded : loadLines (codeLines source) workspace.declared = ⟨.ok (), left, entries⟩) :
    workspace.load source = (.ok (), workspace.afterLoading left entries) := by
  simp only [load, onDeclarations, PacketLayout.load, Job.recordingFailure, loaded, afterLoading]

theorem load_eq_error {workspace after : Workspace} {source : String} {failure : Failure}
    (failed : workspace.load source = (.error failure, after)) :
    ∃ left entries,
      loadLines (codeLines source) workspace.declared = ⟨.error failure, left, entries⟩ ∧
        after = (workspace.afterLoading left entries).record (.fatal failure) := by
  cases ran : loadLines (codeLines source) workspace.declared with
  | mk result left entries =>
    cases result with
    | ok _ =>
      rw [load_eq_ok ran] at failed
      cases failed
    | error other =>
      simp only [load, onDeclarations, PacketLayout.load, Job.recordingFailure, ran] at failed
      cases failed
      exact ⟨left, entries, rfl, by simp [afterLoading, record]⟩

/-- A source that cannot be loaded fails at one of its lines. Cut off in
front of that line, in whichever way, it loads, and what comes of it is
what the whole source comes to but for the record of the failure. -/
theorem load_stops {workspace after : Workspace} {source : String} {failure : Failure}
    (failed : workspace.load source = (.error failure, after)) :
    (1 ≤ failure.site.line ∧ (linesFrom [] source.toList)[failure.site.line - 1]?.bind code?
      = some failure.site.raw.toList) ∧
    (∀ cut, linesFrom [] cut.toList = (linesFrom [] source.toList).take (failure.site.line - 1) →
      ∃ before, workspace.load cut = (.ok (), before) ∧
        after = before.record (.fatal failure)) ∧
    (firstLines (failure.site.line - 1) source).toList <+: source.toList ∧
    linesFrom [] (firstLines (failure.site.line - 1) source).toList
      = (linesFrom [] source.toList).take (failure.site.line - 1) := by
  obtain ⟨left, entries, stopped, rfl⟩ := load_eq_error failed
  obtain ⟨done, rest, split, ran⟩ := loadLines_failed stopped
  refine ⟨mem_codeLines_iff.mp (by rw [split]; simp), fun cut same => ?_, ?_,
    linesFrom_firstLines _ source⟩
  · rw [← codeLines_before split same] at ran
    exact ⟨_, load_eq_ok ran, rfl⟩
  · rw [firstLines, String.toList_ofList]
    exact firstLinesFrom_prefix _ _

/-- A source whose last declaration has a name that is taken in the small
session. -/
def laterSource : String :=
  "<parser>\nPacket[Halt]:0a\ncode:$1\n\nFragment[Path]\nend:$1\n</parser>\n"

/-- The packet before it is declared with its line, behind what the session
has made, and the header is refused. -/
theorem load_stops_sample :
    sample.load laterSource
      = (.error ((Cause.duplicateFragment "Path").atSite ⟨5, "Fragment[Path]"⟩),
        (sample.load laterSource).2) ∧
    ∃ before, sample.load "<parser>\nPacket[Halt]:0a\ncode:$1\n\n" = (.ok (), before) ∧
      before.declared.packets.keys = ["6F", "0A"] ∧
      (sample.load laterSource).2
        = before.record
          (.fatal ((Cause.duplicateFragment "Path").atSite ⟨5, "Fragment[Path]"⟩)) := by
  have failed : (sample.load laterSource).1
      = .error ((Cause.duplicateFragment "Path").atSite ⟨5, "Fragment[Path]"⟩) := by
    decide +kernel
  have stopped : sample.load laterSource
      = (.error ((Cause.duplicateFragment "Path").atSite ⟨5, "Fragment[Path]"⟩),
        (sample.load laterSource).2) := Prod.ext failed rfl
  obtain ⟨_, loads, _, _⟩ := load_stops stopped
  obtain ⟨before, loaded, same⟩ :=
    loads "<parser>\nPacket[Halt]:0a\ncode:$1\n\n" (by decide +kernel)
  refine ⟨stopped, before, loaded, ?_, same⟩
  have declared : (sample.load "<parser>\nPacket[Halt]:0a\ncode:$1\n\n").2.declared.packets.keys
      = ["6F", "0A"] := by
    decide +kernel
  rwa [loaded] at declared

end Workspace

end PacketLayout
