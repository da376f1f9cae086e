/-
PacketLayout.Proofs.Blame — failures point into the source.

A failure names the place it is blamed on. That place is the line being
read in most cases, but it may be a line remembered from before: the
start of a repeated group that is never closed, or the header of a branch
that comes to the text of another. And a fragment that is compiled for
its own sake is referred to from a place that is no line at all.

`Answers` says of a result that it is good, or else blamed on a line of
the code. It goes through every plain form of the work, from one line to
the whole source; what is remembered on the way is among the code.

* `expandAfresh_answers`, `expandAfresh_declared`: fragments, referred to
  from a line of the code, or from anywhere if they are declared.
* `Assembly.step_answers`, `Assembly.assembled_answers`: packets.
* `Workspace.build_failure`: a source that cannot be built.
-/
import PacketLayout.Proofs.Compiling
import PacketLayout.Proofs.Expansion.References
import PacketLayout.Proofs.Loading.Partition

namespace PacketLayout

open Text

/-! ## Failures in the code -/

/-- A source alone can lead to the cause. The two others take a caller
who adds a second line of one number, or who asks for a packet that is
not there. -/
def Cause.isOfSource : Cause → Bool
  | .duplicateLine _ => false
  | .undeclaredPacket _ => false
  | _ => true

/-- The failure is blamed on a line of the code. -/
structure Failure.InCode (code : List Site) (failure : Failure) : Prop where
  site : failure.site ∈ code
  cause : failure.cause.isOfSource = true

section Answers

variable {α β : Type} {code : List Site} {good : α → Prop} {right : β → Prop}

/-- The result is good, or else a failure in the code. -/
def Answers (code : List Site) (good : α → Prop) : Except Failure α → Prop
  | .ok answer => good answer
  | .error failure => failure.InCode code

/-- A cause blamed on a line of the code. -/
theorem answers_atSite {cause : Cause} {site : Site} (here : site ∈ code)
    (known : cause.isOfSource = true) :
    Answers code good (.error (cause.atSite site)) :=
  ⟨here, known⟩

theorem Answers.bind {first : Except Failure α} {next : α → Except Failure β}
    (h : Answers code good first)
    (later : ∀ answer, good answer → Answers code right (next answer)) :
    Answers code right (first.bind next) := by
  cases first with
  | error failure => exact h
  | ok answer => exact later answer h

theorem Answers.map {result : Except Failure α} {f : α → β} (h : Answers code good result)
    (keeps : ∀ answer, good answer → right (f answer)) : Answers code right (result.map f) := by
  cases result with
  | error failure => exact h
  | ok answer => exact keeps answer h

theorem answers_foldlM {step : β → α → Except Failure β} {items : List α} {made : β}
    (start : right made)
    (keeps : ∀ made, ∀ item ∈ items, right made → Answers code right (step made item)) :
    Answers code right (items.foldlM step made) := by
  induction items generalizing made with
  | nil => exact start
  | cons item rest ih =>
    rw [List.foldlM_cons]
    refine (keeps made item (by simp) start).bind fun later here => ?_
    exact ih here fun made item mem => keeps made item (by simp [mem])

theorem answers_forM {check : α → Except Failure Unit} {items : List α}
    (each : ∀ item ∈ items, Answers code (fun _ => True) (check item)) :
    Answers code (fun _ => True) (items.forM check) := by
  induction items with
  | nil => exact trivial
  | cons item rest ih =>
    rw [List.forM]
    refine (each item (by simp)).bind fun _ _ => ?_
    exact ih fun item mem => each item (by simp [mem])

end Answers

/-! ## Reading lines -/

theorem FieldLine.isOfSource_of_read {text : List Char} {cause : Cause}
    (h : FieldLine.read text = .error cause) : cause.isOfSource = true := by
  unfold FieldLine.read at h
  split at h
  · unfold readPadding at h
    dsimp only at h
    split at h
    · split at h
      · cases h
      · cases h
        rfl
    · cases h
      rfl
  · split at h
    · cases h
    · split at h
      · cases h
      · unfold readParts at h
        split at h
        · cases h
        · cases h
          rfl

theorem BranchHeader.isOfSource_of_read {text : List Char} {cause : Cause}
    (h : BranchHeader.read text = .error cause) : cause.isOfSource = true := by
  unfold BranchHeader.read at h
  split at h
  · cases h
    rfl
  · dsimp only at h
    split at h
    · split at h
      · cases h
        rfl
      · cases h
    · split at h
      · cases h
      · cases h
        rfl

/-- Whatever keeps a line from being read, it is in the line. -/
theorem BodyLine.isOfSource_of_read {text : List Char} {cause : Cause}
    (h : BodyLine.read text = .error cause) : cause.isOfSource = true := by
  unfold BodyLine.read at h
  split at h
  · rename_i other read
    cases h
    exact FieldLine.isOfSource_of_read read
  · cases h
  · split at h
    · cases read : BranchHeader.read text with
      | ok header =>
        rw [read] at h
        cases h
      | error other =>
        rw [read] at h
        cases h
        exact BranchHeader.isOfSource_of_read read
    · split at h
      · cases h
      · cases h

/-! ## Fragments -/

section Fragments

variable {code : List Site} {fragments : OrderedMap Fragment}

theorem Expansion.ofLine_answers {expand : String → Site → Except Failure Expansion}
    {site : Site} (here : site ∈ code)
    (found : ∀ name, site.form.reference? = some name →
      Answers code (fun _ => True) (expand name site)) :
    Answers code (fun _ => True) (ofLine expand site) := by
  unfold ofLine
  split
  · rename_i cause read
    exact answers_atSite here (BodyLine.isOfSource_of_read read)
  · exact trivial
  · rename_i name read
    exact found name (by rw [Site.form, read]; rfl)
  · exact trivial
  · exact trivial
  · exact answers_atSite here rfl

theorem Expansion.ofLines_answers {expand : String → Site → Except Failure Expansion}
    {lines : List Site} (here : ∀ site ∈ lines, site ∈ code)
    (found : ∀ site ∈ lines, ∀ name, site.form.reference? = some name →
      Answers code (fun _ => True) (expand name site)) :
    Answers code (fun _ => True) (ofLines expand lines) := by
  induction lines with
  | nil => exact trivial
  | cons site rest ih =>
    have first := ofLine_answers (here site (by simp)) (found site (by simp))
    have later := ih (fun other mem => here other (by simp [mem]))
      fun other mem => found other (by simp [mem])
    cases piece : ofLine expand site with
    | error failure =>
      rw [ofLines_cons_error piece]
      exact piece ▸ first
    | ok part =>
      rw [ofLines_cons_ok piece]
      exact later.map fun _ _ => trivial

/-- The lines of all declared fragments are among the code. -/
def BodiesIn (code : List Site) (fragments : OrderedMap Fragment) : Prop :=
  ∀ name fragment, fragments.get? name = some fragment →
    ∀ site ∈ fragment.body.lines, site ∈ code

/-- The expansion of a fragment that is referred to in the code. -/
theorem expandAfresh_answers (bodies : BodiesIn code fragments) (path : List String) :
    ∀ name, ∀ site ∈ code,
      Answers code (fun _ => True) (expandAfresh fragments path name site) := by
  induction path using offPath_induction fragments.keys with
  | step path ih =>
    intro name site here
    rw [expandAfresh_eq]
    cases declared : fragments.get? name with
    | none => exact answers_atSite here rfl
    | some fragment =>
      dsimp only
      split
      · exact answers_atSite here rfl
      · rename_i free
        have inside := bodies name fragment declared
        exact Expansion.ofLines_answers inside fun place mem inner _ =>
          ih name (OrderedMap.mem_keys_of_get? declared) free inner place (inside place mem)

/-- A declared fragment may be referred to from anywhere. -/
theorem expandAfresh_declared (bodies : BodiesIn code fragments) {name : String}
    {fragment : Fragment} (declared : fragments.get? name = some fragment) (site : Site) :
    Answers code (fun _ => True) (expandAfresh fragments [] name site) := by
  have inside := bodies name fragment declared
  rw [expandAfresh_eq, declared]
  dsimp only
  rw [if_neg (by simp)]
  exact Expansion.ofLines_answers inside fun place mem inner _ =>
    expandAfresh_answers bodies _ inner place (inside place mem)

end Fragments

/-! ## Packets -/

namespace Assembly

variable {code : List Site} {made : Assembly} {site : Site}

/-- The lines that are remembered to be blamed are among the code. -/
structure Remembers (code : List Site) (made : Assembly) : Prop where
  openRepeat : ∀ opened, made.openRepeat = some opened → opened ∈ code
  current : ∀ branch, made.current = some branch → branch.site ∈ code

theorem Remembers.start : Remembers code {} where
  openRepeat _ same := nomatch same
  current _ same := nomatch same

theorem Remembers.add (known : made.Remembers code) (token : Token) (field : Field) :
    (made.add token field).Remembers code := by
  unfold Assembly.add
  split
  · rename_i branch opened
    refine ⟨known.openRepeat, fun other same => ?_⟩
    cases same
    exact known.current branch opened
  · split
    · exact ⟨known.openRepeat, known.current⟩
    · exact ⟨known.openRepeat, known.current⟩

theorem closed_answers (known : made.Remembers code) :
    Answers code (Remembers code) made.closed := by
  unfold closed
  split
  · exact known
  · rename_i branch opened
    split
    · exact ⟨known.openRepeat, fun _ same => nomatch same⟩
    · split
      · exact answers_atSite (known.current branch opened) rfl
      · exact ⟨known.openRepeat, fun _ same => nomatch same⟩

theorem noteDescription_answers (known : made.Remembers code) (here : site ∈ code)
    (description : String) :
    Answers code (Remembers code) (made.noteDescription description site) := by
  unfold noteDescription
  split
  · exact known
  · split
    · exact answers_atSite here rfl
    · exact ⟨known.openRepeat, known.current⟩

theorem startBranch_answers (known : made.Remembers code) {branch : Branch}
    (here : branch.site ∈ code) (discriminator : Option String) :
    Answers code (Remembers code) (made.startBranch branch discriminator) := by
  unfold startBranch
  split
  · refine ⟨known.openRepeat, fun other same => ?_⟩
    cases same
    exact here
  · split
    · exact answers_atSite here rfl
    · refine ⟨known.openRepeat, fun other same => ?_⟩
      cases same
      exact here

theorem opened_answers (known : made.Remembers code) (here : site ∈ code)
    (header : BranchHeader) : Answers code (Remembers code) (made.opened header site) := by
  unfold opened
  split
  · rename_i opened inside
    exact answers_atSite (known.openRepeat opened inside) rfl
  · refine (closed_answers known).bind fun closed known => ?_
    refine (noteDescription_answers known here header.description).bind fun noted known => ?_
    exact startBranch_answers known here header.discriminator

theorem addPlaceholder_answers (known : made.Remembers code) (here : site ∈ code) :
    Answers code (Remembers code) (made.addPlaceholder site) := by
  unfold addPlaceholder
  split
  · exact answers_atSite here rfl
  · split
    · exact answers_atSite here rfl
    · exact ⟨known.openRepeat, known.current⟩

theorem pack_answers (known : made.Remembers code) :
    Answers code (Remembers code) made.pack := by
  unfold pack
  split
  · rename_i opened _ inside
    exact answers_atSite (known.openRepeat opened inside) rfl
  · exact ⟨known.openRepeat, known.current⟩

theorem startRepeat_answers (known : made.Remembers code) (here : site ∈ code) :
    Answers code (Remembers code) (made.startRepeat site) := by
  unfold startRepeat
  split
  · exact answers_atSite here rfl
  · split
    · exact answers_atSite here rfl
    · refine ⟨fun opened same => ?_, (known.add .repeatStart .placeholder).current⟩
      cases same
      exact here

theorem endRepeat_answers (known : made.Remembers code) (here : site ∈ code) :
    Answers code (Remembers code) (made.endRepeat site) := by
  unfold endRepeat
  split
  · exact answers_atSite here rfl
  · split
    · exact answers_atSite here rfl
    · refine ⟨fun opened same => ?_, (known.add .repeatEnd .placeholder).current⟩
      cases same

/-- One line of a packet, with one case for each form. -/
theorem take_answers (known : made.Remembers code) (here : site ∈ code) (part : Expansion)
    (line : BodyLine) : Answers code (Remembers code) (made.take site part line) := by
  cases line with
  | field line => exact known.add line.token line.field
  | branch header => exact opened_answers known here header
  | unrecognized => exact answers_atSite here rfl
  | control line =>
    cases line with
    | fragmentRef name => exact ⟨known.openRepeat, known.current⟩
    | placeholder => exact addPlaceholder_answers known here
    | repeatStart => exact startRepeat_answers known here
    | repeatEnd => exact endRepeat_answers known here
    | pack => exact pack_answers known

theorem step_answers {expand : String → Site → Except Failure Expansion}
    (known : made.Remembers code) (here : site ∈ code)
    (found : ∀ name, site.form.reference? = some name →
      Answers code (fun _ => True) (expand name site)) :
    Answers code (Remembers code) (made.step expand site) := by
  unfold step
  split
  · rename_i cause read
    exact answers_atSite here (BodyLine.isOfSource_of_read read)
  · rename_i line read
    have part : Answers code (fun _ => True) (line.part expand site) := by
      unfold BodyLine.part
      split
      · exact found _ (by rw [Site.form, read]; rfl)
      · exact trivial
    split
    · rename_i failure missing
      rw [missing] at part
      exact part
    · exact take_answers known here _ line

theorem finished_answers (known : made.Remembers code) :
    Answers code (fun _ => True) made.finished := by
  unfold finished
  cases inside : made.openRepeat with
  | some opened => exact answers_atSite (known.openRepeat opened inside) rfl
  | none =>
    cases made.placeholder with
    | none => exact trivial
    | some line => exact (closed_answers known).map fun _ _ => trivial

theorem assembled_answers {expand : String → Site → Except Failure Expansion}
    {lines : List Site} (here : ∀ site ∈ lines, site ∈ code)
    (found : ∀ site ∈ lines, ∀ name, site.form.reference? = some name →
      Answers code (fun _ => True) (expand name site)) :
    Answers code (fun _ => True) (assembled expand lines) := by
  have run : Answers code (Remembers code) (lines.foldlM (step expand) {}) :=
    answers_foldlM .start fun made site mem known =>
      step_answers known (here site mem) (found site mem)
  unfold assembled
  cases collected : lines.foldlM (step expand) {} with
  | error failure =>
    rw [collected] at run
    exact run
  | ok made =>
    rw [collected] at run
    exact finished_answers run

end Assembly

/-! ## Whole sources -/

/-- The header of a fragment is longer than its name. -/
theorem Site.fragment?_imp {site : Site} {fragment : Fragment}
    (found : site.fragment? = some fragment) :
    fragment.line = site.line ∧ fragment.busy = false ∧
      fragment.name.length < site.raw.length := by
  unfold Site.fragment? at found
  split at found
  · rename_i starts
    obtain ⟨name, read, rfl⟩ := Option.map_eq_some_iff.mp found
    refine ⟨rfl, rfl, ?_⟩
    obtain ⟨rest, opened⟩ := Option.isSome_iff_exists.mp starts
    have text := after?_eq_some_iff.mp opened
    have unsigned : afterSign? "+" site.raw.toList = none := by
      rw [text]
      rfl
    rw [readFragmentHeader?, unsigned, Option.getD_none, readFragmentName?, opened] at read
    dsimp only [Option.bind_some] at read
    split at read
    · rename_i inside behind bracket
      obtain ⟨rfl, _⟩ := bracketed?_eq_some_iff.mp bracket
      split at read
      · cases read
        rw [← String.length_toList, ← String.length_toList, text]
        simp only [String.toList_ofList, List.length_append, List.length_cons]
        omega
      · cases read
    · cases read
  · cases found

namespace Layout.Partition

variable {code : List Site} {declared : Declarations}

/-- A declared fragment stands in a block, under its own name. -/
theorem fragment (partition : Partition code declared) {entry : String × Fragment}
    (mem : entry ∈ declared.fragments.entries) :
    entry.1 = entry.2.name ∧ ∃ block ∈ blocks code, block.fragment? = some entry.2 := by
  rw [partition.fragments, fragmentEntries] at mem
  obtain ⟨fragment, made, rfl⟩ := List.mem_map.mp mem
  exact ⟨rfl, List.mem_filterMap.mp made⟩

/-- A declared packet stands in a block, under its own header. -/
theorem packet (partition : Partition code declared) {entry : String × Packet}
    (mem : entry ∈ declared.packets.entries) :
    entry.1 = entry.2.header ∧ ∃ block ∈ blocks code, block.packet? = some entry.2 := by
  rw [partition.packets, packetEntries] at mem
  obtain ⟨packet, made, rfl⟩ := List.mem_map.mp mem
  exact ⟨rfl, List.mem_filterMap.mp made⟩

/-- The lines of a block are among the code. -/
theorem line_mem (partition : Partition code declared) {block : Block} (mem : block ∈ blocks code)
    {site : Site} (line : site ∈ (Body.ofLines block.lines).lines) : site ∈ code := by
  rw [partition.bodies block mem] at line
  exact (lines_sublist mem).subset line

theorem bodiesIn (partition : Partition code declared) : BodiesIn code declared.fragments := by
  intro name fragment found site line
  obtain ⟨_, block, mem, made⟩ := partition.fragment (OrderedMap.mem_entries_of_get? found)
  obtain ⟨_, _, rfl⟩ := Option.map_eq_some_iff.mp made
  exact partition.line_mem mem line

/-- Nobody else is building a fragment. -/
theorem idle (partition : Partition code declared) (name : String) (fragment : Fragment)
    (found : declared.fragments.get? name = some fragment) : fragment.busy = false := by
  obtain ⟨_, block, mem, made⟩ := partition.fragment (OrderedMap.mem_entries_of_get? found)
  obtain ⟨opened, header, rfl⟩ := Option.map_eq_some_iff.mp made
  exact (Site.fragment?_imp header).2.1

/-- Packets are declared under their headers in capitals. -/
theorem upper_header (partition : Partition code declared) {header : String}
    (mem : header ∈ declared.packets.keys) : upper header = header := by
  obtain ⟨entry, there, rfl⟩ := List.mem_map.mp mem
  obtain ⟨same, block, _, made⟩ := partition.packet there
  rw [same]
  obtain ⟨opened, found, later⟩ := Option.map_eq_some_iff.mp made
  rw [← later]
  unfold Site.packet? at found
  split at found
  · obtain ⟨packet, _, rfl⟩ := Option.map_eq_some_iff.mp found
    exact upper_upper packet.header
  · cases found

/-- Compiling everything that has been declared. -/
theorem eagerOutcome_answers (partition : Partition code declared) :
    Answers code (fun _ => True) (eagerOutcome declared {}) := by
  have afresh : expandGiven ({} : Results).expansions declared.fragments []
      = expandAfresh declared.fragments [] := expandGiven_empty partition.idle []
  refine (answers_forM fun fragment mem => ?_).bind fun _ _ => answers_forM fun header mem => ?_
  · obtain ⟨entry, inside, rfl⟩ := List.mem_map.mp mem
    have there : entry.2.name ∈ declared.fragments.keys := by
      rw [← (partition.fragment inside).1]
      exact List.mem_map_of_mem inside
    cases found : declared.fragments.get? entry.2.name with
    | none => exact absurd there (OrderedMap.get?_eq_none_iff.mp found)
    | some other =>
      have outcome : Answers code (fun _ => True) (declaredOutcome declared {} entry.2) := by
        rw [declaredOutcome, afresh]
        exact expandAfresh_declared partition.bodiesIn found _
      exact outcome.map fun _ _ => trivial
  · suffices outcome : Answers code (fun _ => True) (packetOutcome declared {} header) from
      outcome.map fun _ _ => trivial
    rw [packetOutcome, partition.upper_header mem]
    cases found : declared.packets.get? header with
    | none => exact absurd mem (OrderedMap.get?_eq_none_iff.mp found)
    | some packet =>
      obtain ⟨_, block, inside, made⟩ := partition.packet (OrderedMap.mem_entries_of_get? found)
      obtain ⟨_, _, rfl⟩ := Option.map_eq_some_iff.mp made
      have lines : ∀ site ∈ (Body.ofLines block.lines).lines, site ∈ code := fun _ line =>
        partition.line_mem inside line
      have none : ({} : Results).packets.get? header = none := rfl
      simp only [none, afresh]
      exact Assembly.assembled_answers lines fun site line name _ =>
        expandAfresh_answers partition.bodiesIn [] name site (lines site line)

/-- The place that a fragment is compiled from for its own sake is no
line of the code. -/
theorem not_mem_code {source : String} {rest : List Site}
    (partition : Partition code declared) (split : codeLines source = code ++ rest)
    {fragment : Fragment} (there : fragment ∈ declared.fragments.values) :
    (⟨fragment.line, fragment.name⟩ : Site) ∉ codeLines source := by
  intro line
  obtain ⟨entry, mem, rfl⟩ := List.mem_map.mp there
  obtain ⟨_, block, inside, made⟩ := partition.fragment mem
  obtain ⟨opened, found, same⟩ := Option.map_eq_some_iff.mp made
  obtain ⟨number, _, shorter⟩ := Site.fragment?_imp found
  rw [← same] at line
  have header : block.header ∈ codeLines source := by
    have mem : block.header ∈ code.filter Site.isHeader := by
      rw [← headers_blocks]
      exact List.mem_map_of_mem inside
    rw [split]
    exact List.mem_append_left rest (List.mem_filter.mp mem).1
  have distinct : ((codeLines source).map Site.line).Nodup :=
    List.pairwise_map.mpr ((ascending_codeLines source).imp Nat.ne_of_lt)
  have raw := congrArg Site.raw (List.inj_on_of_nodup_map distinct line header number)
  rw [← raw] at shorter
  exact Nat.lt_irrefl _ shorter

end Layout.Partition

namespace Workspace

variable {source : String} {timestamp : Nat} {failure : Failure}

/-- A build that fails blames a line of the code. What has been declared
by then are the blocks of the first lines, up to the failure or to the
end. -/
theorem build_failed (failed : (Workspace.build {} source timestamp).1 = .error failure) :
    failure.InCode (codeLines source) ∧ ∃ done rest, codeLines source = done ++ rest ∧
      Layout.Partition done (Workspace.build {} source timestamp).2.declared := by
  unfold Workspace.build at failed ⊢
  rcases load_cases source with ⟨after, loaded, _, partition, fresh⟩ |
    ⟨other, after, done, rest, loaded, split, _, partition, fault⟩
  · simp only [loaded] at failed ⊢
    have result : after.compileAll.1 = eagerOutcome after.declared {} :=
      fresh ▸ (compileAll_ends after.declared after.results).1
    have answers := partition.eagerOutcome_answers
    have unchanged : after.compileAll.2.declared = after.declared := rfl
    rw [← result] at answers
    cases outcome : after.compileAll with
    | mk answer compiled =>
      rw [outcome] at answers unchanged
      cases answer with
      | ok _ => simp [outcome] at failed
      | error other =>
        simp only [outcome, Except.error.injEq] at failed ⊢
        exact ⟨failed ▸ answers, codeLines source, [], by simp, unchanged ▸ partition⟩
  · simp only [loaded, Except.error.injEq] at failed ⊢
    subst failed
    refine ⟨⟨by simp [split], ?_⟩, done, _, split, partition⟩
    rcases Layout.fault?_cases fault with h | h | h | ⟨_, h⟩ | ⟨_, h⟩ | ⟨h, _⟩ <;> rw [h] <;> rfl

/-- Every failure of a build points to a line of the source, by its number
and with its code. No failure can be put down to a line that was added
twice or to a packet that is not there, and the place that a fragment is
compiled from for its own sake is never blamed. -/
theorem build_failure (failed : (Workspace.build {} source timestamp).1 = .error failure) :
    1 ≤ failure.site.line ∧ failure.site.line ≤ (linesFrom [] source.toList).length ∧
      (linesFrom [] source.toList)[failure.site.line - 1]?.bind code?
        = some failure.site.raw.toList ∧
      (∀ number, failure.cause ≠ .duplicateLine number) ∧
      (∀ header, failure.cause ≠ .undeclaredPacket header) ∧
      ∀ fragment ∈ (Workspace.build {} source timestamp).2.declared.fragments.values,
        failure.site ≠ ⟨fragment.line, fragment.name⟩ := by
  obtain ⟨⟨here, cause⟩, done, rest, split, partition⟩ := build_failed failed
  obtain ⟨least, there⟩ := Layout.mem_codeLines_iff.mp here
  obtain ⟨line, found, _⟩ := Option.bind_eq_some_iff.mp there
  obtain ⟨short, _⟩ := List.getElem?_eq_some_iff.mp found
  refine ⟨least, by omega, there, fun number same => ?_, fun header same => ?_,
    fun fragment mem same => ?_⟩
  · rw [same] at cause
    cases cause
  · rw [same] at cause
    cases cause
  · exact partition.not_mem_code split mem (same ▸ here)

/-- A packet whose repeated group is never closed. -/
def openGroupSource : String :=
  "<parser>\nFragment[Point]\nx:$2\n\nPacket[Walk]:6f // on foot\n+ Fragment[Point]\n"
    ++ "  + REP // steps\ny:$2\n</parser>\n"

/-- The start of the group is to blame, though the failure comes up at
the end. -/
theorem build_failure_openGroup :
    (Workspace.build {} openGroupSource 0).1
      = .error (Cause.unclosedRepeat.atSite ⟨7, "+ REP"⟩) ∧
    (linesFrom [] openGroupSource.toList).length = 9 ∧
    (linesFrom [] openGroupSource.toList)[6]? = some "  + REP // steps".toList ∧
    (linesFrom [] openGroupSource.toList)[6]?.bind code? = some "+ REP".toList := by
  have failed : (Workspace.build {} openGroupSource 0).1
      = .error (Cause.unclosedRepeat.atSite ⟨7, "+ REP"⟩) := by decide +kernel
  exact ⟨failed, by decide +kernel, by decide +kernel, (build_failure failed).2.2.1⟩

end Workspace

end PacketLayout
