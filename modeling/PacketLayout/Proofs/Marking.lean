/-
PacketLayout.Proofs.Marking — compiling with marks.

A resolution is told by its path which fragments are being built. The
same work can be done without a path, on a state that changes: before the
lines of a fragment are built, the fragment is marked as busy and its
name put on a stack, and when they have been built, or have failed, both
are taken back. `visit` is that work on a fragment, and `Marked` goes on
to packets and to everything.

`visit` ends because it marks a pending fragment before it looks at a
line. `Within` keeps the number of pending fragments under a bound, which
becomes smaller with each step inward, and no way back makes more of
them than there were.

* `visit_mirrors`: on a bench that shows the kept expansions and the
  path, `visit` does what `resolve` does, and leaves a bench that shows
  what `resolve` leaves, along the same path.
* `Marked.compileFragment_mirrors`, `Marked.compilePacket_mirrors`,
  `Marked.compileAll_mirrors`: so does all compiling.
-/
import Mathlib.Data.Finset.Card
import PacketLayout.Proofs.Compiling

namespace PacketLayout

open Text

/-! ## Marks and stack -/

/-- What is changed by compiling: the state of every fragment, the names
of those being built, outermost first, and the signatures of packets. -/
@[ext]
structure Bench where
  marks : String → FragmentState
  stack : List String
  packets : OrderedMap SignatureSet

namespace Bench

def mark (bench : Bench) (name : String) (state : FragmentState) : Bench :=
  { bench with marks := fun other => if other = name then state else bench.marks other }

/-- Begins to build a fragment. -/
def enter (bench : Bench) (name : String) : Bench :=
  { bench.mark name .busy with stack := bench.stack ++ [name] }

/-- Ends to build the fragment that was begun last. -/
def leave (bench : Bench) (name : String) (state : FragmentState) : Bench :=
  { bench.mark name state with stack := bench.stack.dropLast }

@[simp] theorem marks_enter (bench : Bench) (name other : String) :
    (bench.enter name).marks other = if other = name then .busy else bench.marks other := rfl

@[simp] theorem stack_enter (bench : Bench) (name : String) :
    (bench.enter name).stack = bench.stack ++ [name] := rfl

@[simp] theorem marks_leave (bench : Bench) (name other : String) (state : FragmentState) :
    (bench.leave name state).marks other
      = if other = name then state else bench.marks other := rfl

@[simp] theorem stack_leave (bench : Bench) (name : String) (state : FragmentState) :
    (bench.leave name state).stack = bench.stack.dropLast := rfl

/-- The declared fragments whose building has not begun. -/
def pending (fragments : OrderedMap Fragment) (bench : Bench) : Finset String :=
  fragments.keys.toFinset.filter fun name => bench.marks name = .pending

theorem mem_pending {fragments : OrderedMap Fragment} {bench : Bench} {name : String} :
    name ∈ bench.pending fragments ↔ name ∈ fragments.keys ∧ bench.marks name = .pending := by
  simp [pending]

theorem pending_enter_subset (fragments : OrderedMap Fragment) (bench : Bench) (name : String) :
    (bench.enter name).pending fragments ⊆ (bench.pending fragments).erase name := by
  intro other mem
  obtain ⟨declared, marked⟩ := mem_pending.mp mem
  have different : other ≠ name := by
    rintro rfl
    simp at marked
  refine Finset.mem_erase.mpr ⟨different, mem_pending.mpr ⟨declared, ?_⟩⟩
  simpa [different] using marked

theorem pending_leave_subset (fragments : OrderedMap Fragment) (bench : Bench) (name : String)
    (state : FragmentState) :
    (bench.leave name state).pending fragments ⊆ insert name (bench.pending fragments) := by
  intro other mem
  obtain ⟨declared, marked⟩ := mem_pending.mp mem
  by_cases same : other = name
  · exact Finset.mem_insert.mpr (.inl same)
  · refine Finset.mem_insert_of_mem (mem_pending.mpr ⟨declared, ?_⟩)
    simpa [same] using marked

end Bench

/-- Benches with no more pending fragments than there is room for. -/
abbrev Within (fragments : OrderedMap Fragment) (room : Nat) : Type :=
  { bench : Bench // (bench.pending fragments).card ≤ room }

namespace Within

variable {fragments : OrderedMap Fragment} {room : Nat} {name : String}

theorem room_pos (bench : Within fragments room) (declared : name ∈ fragments.keys)
    (pending : bench.val.marks name = .pending) : 0 < room :=
  (Finset.card_pos.mpr ⟨name, Bench.mem_pending.mpr ⟨declared, pending⟩⟩).trans_le bench.property

/-- Begins to build a pending fragment: there is less room. -/
def enter (bench : Within fragments room) (name : String) (declared : name ∈ fragments.keys)
    (pending : bench.val.marks name = .pending) : Within fragments (room - 1) :=
  ⟨bench.val.enter name, by
    have inside : name ∈ bench.val.pending fragments := Bench.mem_pending.mpr ⟨declared, pending⟩
    have fewer := Finset.card_le_card (Bench.pending_enter_subset fragments bench.val name)
    rw [Finset.card_erase_of_mem inside] at fewer
    exact fewer.trans (Nat.sub_le_sub_right bench.property 1)⟩

/-- Ends to build a fragment: there is the room that there was. -/
def leave (bench : Within fragments (room - 1)) (name : String) (state : FragmentState)
    (pos : 0 < room) : Within fragments room :=
  ⟨bench.val.leave name state, by
    have more := (Finset.card_le_card
      (Bench.pending_leave_subset fragments bench.val name state)).trans
        (Finset.card_insert_le _ _)
    have before := bench.property
    omega⟩

end Within

/-- Ends to build the fragment with a header on `line`: its mark says
that it has been compiled, or that its building has not begun. -/
def endBuild {fragments : OrderedMap Fragment} {room : Nat} (line : Nat) (name : String)
    (pos : 0 < room) :
    Outcome (Within fragments (room - 1)) Expansion → Outcome (Within fragments room) Expansion
  | ⟨.ok expansion, bench, entries⟩ =>
    ⟨.ok expansion, bench.leave name (.compiled expansion) pos,
      .info line (.fragmentStarted name) :: entries
        ++ [.trace (.fragmentBuilt name expansion.signature.render)]⟩
  | ⟨.error failure, bench, entries⟩ =>
    ⟨.error failure, bench.leave name .pending pos,
      .info line (.fragmentStarted name) :: entries⟩

/-- The expansion of the fragment `name`, referred to at `site`, found by
marking what is being built. -/
def visit (fragments : OrderedMap Fragment) (room : Nat) (name : String) (site : Site) :
    Job (Within fragments room) Expansion := fun bench =>
  match declared : fragments.get? name, marked : bench.val.marks name with
  | none, _ => ⟨.error ((Cause.undeclaredFragment name).atSite site), bench, []⟩
  | some _, .compiled expansion => ⟨.ok expansion, bench, []⟩
  | some _, .busy =>
    ⟨.error ((Cause.fragmentCycle name (bench.val.stack ++ [name])).atSite site), bench, []⟩
  | some fragment, .pending =>
    have known := OrderedMap.mem_keys_of_get? declared
    have pos := bench.room_pos known marked
    endBuild fragment.line name pos
      (fragment.body.lines.foldlM
        (Expansion.addLine fun inner place => visit fragments (room - 1) inner place) {}
        (bench.enter name known marked))
termination_by room
decreasing_by exact Nat.sub_lt pos Nat.one_pos

/-! ## Marks and paths -/

/-- The state of a fragment, where the kept expansions are known and the
fragments on `path` are being built. -/
def markAlong (fragments : OrderedMap Fragment) (path : List String) (known : Expansions)
    (name : String) : FragmentState :=
  match known.get? name with
  | some expansion => .compiled expansion
  | none =>
    if name ∈ path ∨ (fragments.get? name).any Fragment.busy = true then .busy else .pending

/-- The bench that shows the kept expansions and signatures, and a
path. -/
def Bench.along (fragments : OrderedMap Fragment) (path : List String)
    (packets : OrderedMap SignatureSet) (known : Expansions) : Bench :=
  ⟨markAlong fragments path known, path, packets⟩

/-- The bench shows the path and what is kept, and nothing is kept of the
fragments on the path. -/
structure Along (path : List String) (packets : OrderedMap SignatureSet)
    {fragments : OrderedMap Fragment} {room : Nat} (bench : Within fragments room)
    (known : Expansions) : Prop where
  shows : bench.val = Bench.along fragments path packets known
  free : ∀ outer ∈ path, known.get? outer = none

section Along

variable {fragments : OrderedMap Fragment} {path : List String} {room : Nat}
  {packets : OrderedMap SignatureSet} {known : Expansions} {name : String}

theorem markAlong_kept {expansion : Expansion} (kept : known.get? name = some expansion) :
    markAlong fragments path known name = .compiled expansion := by
  simp [markAlong, kept]

theorem markAlong_busy (fresh : known.get? name = none) {fragment : Fragment}
    (declared : fragments.get? name = some fragment)
    (again : name ∈ path ∨ fragment.busy = true) :
    markAlong fragments path known name = .busy := by
  simp [markAlong, fresh, declared, again]

theorem markAlong_pending (fresh : known.get? name = none) {fragment : Fragment}
    (declared : fragments.get? name = some fragment)
    (idle : ¬ (name ∈ path ∨ fragment.busy = true)) :
    markAlong fragments path known name = .pending := by
  simp [markAlong, fresh, declared, idle]

/-- A longer path changes the state of the name that is added only. -/
theorem markAlong_longer {other : String} (different : other ≠ name) :
    markAlong fragments (path ++ [name]) known other = markAlong fragments path known other := by
  simp [markAlong, different]

theorem markAlong_insert {other : String} (different : other ≠ name) (expansion : Expansion) :
    markAlong fragments path (known.insert name expansion) other
      = markAlong fragments path known other := by
  simp [markAlong, OrderedMap.get?_insert, different]

/-- Beginning to build a fragment makes the path longer. -/
theorem Bench.enter_along (fresh : known.get? name = none) :
    (Bench.along fragments path packets known).enter name
      = Bench.along fragments (path ++ [name]) packets known := by
  refine Bench.ext (funext fun other => ?_) (Bench.stack_enter _ _) rfl
  change (if other = name then _ else markAlong fragments path known other) = _
  split
  · rename_i same
    simp [Bench.along, markAlong, same, fresh]
  · rename_i different
    exact (markAlong_longer different).symm

/-- Ending to build a fragment that has been kept. -/
theorem Bench.leave_kept (expansion : Expansion) :
    (Bench.along fragments (path ++ [name]) packets known).leave name (.compiled expansion)
      = Bench.along fragments path packets (known.insert name expansion) := by
  refine Bench.ext (funext fun other => ?_) (by simp [Bench.along]) rfl
  change (if other = name then _ else markAlong fragments (path ++ [name]) known other)
    = markAlong fragments path (known.insert name expansion) other
  split
  · rename_i same
    rw [same, markAlong_kept (by rw [OrderedMap.get?_insert, if_pos rfl])]
  · rename_i different
    rw [markAlong_longer different, markAlong_insert different]

/-- Ending to build a fragment that has failed. -/
theorem Bench.leave_failed (fresh : known.get? name = none) {fragment : Fragment}
    (declared : fragments.get? name = some fragment)
    (idle : ¬ (name ∈ path ∨ fragment.busy = true)) :
    (Bench.along fragments (path ++ [name]) packets known).leave name .pending
      = Bench.along fragments path packets known := by
  refine Bench.ext (funext fun other => ?_) (by simp [Bench.along]) rfl
  change (if other = name then _ else markAlong fragments (path ++ [name]) known other)
    = markAlong fragments path known other
  split
  · rename_i same
    rw [same, markAlong_pending fresh declared idle]
  · rename_i different
    exact markAlong_longer different

end Along

/-! ## The same work -/

section Lines

variable {σ τ : Type} {related : σ → τ → Prop} {visit : String → Site → Job σ Expansion}
  {resolve : String → Site → Job τ Expansion}

theorem readAt_mirrors (site : Site) :
    Job.Mirrors related (BodyLine.readAt site : Job σ BodyLine) (BodyLine.readAt site) := by
  unfold BodyLine.readAt
  cases BodyLine.read site.raw.toList with
  | error cause => exact Job.mirrors_fail
  | ok line => exact Job.mirrors_report.bind fun _ => Job.mirrors_pure

theorem Expansion.addLine_mirrors
    (same : ∀ name site, Job.Mirrors related (visit name site) (resolve name site))
    (made : Expansion) (site : Site) :
    Job.Mirrors related (made.addLine visit site) (made.addLine resolve site) := by
  unfold Expansion.addLine
  refine (readAt_mirrors site).bind fun line => ?_
  cases line with
  | field line => exact Job.mirrors_pure
  | branch header => exact Job.mirrors_fail
  | unrecognized => exact Job.mirrors_fail
  | control line =>
    cases line with
    | fragmentRef name => exact (same name site).bind fun _ => Job.mirrors_pure
    | repeatStart => exact Job.mirrors_pure
    | repeatEnd => exact Job.mirrors_pure
    | placeholder => exact Job.mirrors_fail
    | pack => exact Job.mirrors_fail

namespace Assembly

theorem closeBranch_mirrors (made : Assembly) :
    Job.Mirrors related (made.closeBranch : Job σ Assembly) made.closeBranch := by
  unfold closeBranch
  split
  · exact Job.mirrors_pure
  · split
    · exact Job.mirrors_report.bind fun _ => Job.mirrors_pure
    · dsimp only
      split
      · exact Job.mirrors_fail
      · exact Job.mirrors_pure

theorem openBranch_mirrors (made : Assembly) (header : BranchHeader) (site : Site) :
    Job.Mirrors related (made.openBranch header site : Job σ Assembly)
      (made.openBranch header site) := by
  unfold openBranch
  split
  · exact Job.mirrors_fail
  · refine (closeBranch_mirrors made).bind fun _ => ?_
    refine Job.mirrors_ofExcept.bind fun _ => ?_
    refine Job.mirrors_ofExcept.bind fun _ => ?_
    exact Job.mirrors_report.bind fun _ => Job.mirrors_pure

theorem addLine_mirrors
    (same : ∀ name site, Job.Mirrors related (visit name site) (resolve name site))
    (made : Assembly) (site : Site) :
    Job.Mirrors related (made.addLine visit site) (made.addLine resolve site) := by
  unfold addLine
  refine (readAt_mirrors site).bind fun line => ?_
  cases line with
  | field line => exact Job.mirrors_pure
  | branch header => exact openBranch_mirrors made header site
  | unrecognized => exact Job.mirrors_fail
  | control line =>
    cases line with
    | fragmentRef name => exact (same name site).bind fun _ => Job.mirrors_pure
    | _ => exact Job.mirrors_ofExcept

theorem finish_mirrors (made : Assembly) :
    Job.Mirrors related (made.finish : Job σ SignatureSet) made.finish := by
  unfold finish
  split
  · exact Job.mirrors_fail
  · exact Job.mirrors_report.bind fun _ => Job.mirrors_pure
  · refine (closeBranch_mirrors made).bind fun _ => ?_
    exact Job.mirrors_report.bind fun _ => Job.mirrors_pure

end Assembly

end Lines

/-! ## Fragments -/

section Visit

variable {fragments : OrderedMap Fragment} {path : List String} {room : Nat}
  {packets : OrderedMap SignatureSet} {name : String} {site : Site}

theorem visit_undeclared (bench : Within fragments room) (undeclared : fragments.get? name = none) :
    visit fragments room name site bench
      = ⟨.error ((Cause.undeclaredFragment name).atSite site), bench, []⟩ := by
  rw [visit]
  split
  · rfl
  all_goals simp_all

variable {fragment : Fragment} {bench : Within fragments room}

theorem visit_kept (declared : fragments.get? name = some fragment) {expansion : Expansion}
    (marked : bench.val.marks name = .compiled expansion) :
    visit fragments room name site bench = ⟨.ok expansion, bench, []⟩ := by
  rw [visit]
  split
  all_goals simp_all

theorem visit_busy (declared : fragments.get? name = some fragment)
    (marked : bench.val.marks name = .busy) :
    visit fragments room name site bench
      = ⟨.error ((Cause.fragmentCycle name (bench.val.stack ++ [name])).atSite site),
          bench, []⟩ := by
  rw [visit]
  split
  all_goals simp_all

theorem visit_pending (declared : fragments.get? name = some fragment)
    (marked : bench.val.marks name = .pending) :
    visit fragments room name site bench
      = endBuild fragment.line name
          (bench.room_pos (OrderedMap.mem_keys_of_get? declared) marked)
          (fragment.body.lines.foldlM (Expansion.addLine (visit fragments (room - 1))) {}
            (bench.enter name (OrderedMap.mem_keys_of_get? declared) marked)) := by
  rw [visit]
  split
  · simp_all
  · simp_all
  · simp_all
  · rename_i other there _
    obtain rfl : fragment = other := by simpa [declared] using there
    rfl

/-- What a resolution does at the end of a fragment with a header on
`line`. -/
def keepBuilt (line : Nat) (name : String) :
    Outcome Expansions Expansion → Outcome Expansions Expansion
  | ⟨.ok expansion, found, entries⟩ =>
    ⟨.ok expansion, found.insert name expansion,
      .info line (.fragmentStarted name) :: entries
        ++ [.trace (.fragmentBuilt name expansion.signature.render)]⟩
  | ⟨.error failure, found, entries⟩ =>
    ⟨.error failure, found, .info line (.fragmentStarted name) :: entries⟩

/-- A resolution from the expansions that are kept. -/
theorem resolve_run (declared : fragments.get? name = some fragment) (path : List String)
    (known : Expansions) :
    resolve fragments path name site known
      = match known.get? name with
        | some expansion => ⟨.ok expansion, known, []⟩
        | none =>
          if name ∈ path ∨ fragment.busy = true then
            ⟨.error ((Cause.fragmentCycle name (path ++ [name])).atSite site), known, []⟩
          else
            keepBuilt fragment.line name
              (fragment.body.lines.foldlM
                (Expansion.addLine (resolve fragments (path ++ [name]))) {} known) := by
  rw [resolve_eq]
  simp only [declared]
  rw [Job.bind_run_ok (show Job.get known = ⟨.ok known, known, []⟩ from rfl)]
  cases known.get? name with
  | some expansion => rfl
  | none =>
    dsimp only
    split
    · rfl
    · rw [Job.bind_run_ok (show Job.report _ known = ⟨.ok (), known, _⟩ from rfl)]
      cases lines : fragment.body.lines.foldlM
          (Expansion.addLine (resolve fragments (path ++ [name]))) {} known with
      | mk result found entries =>
        cases result with
        | error failure =>
          rw [Job.bind_run_error lines]
          rfl
        | ok expansion =>
          rw [Job.bind_run_ok lines]
          rfl

/-- Both end a fragment alike. -/
theorem endBuild_mirrors (pos : 0 < room) (declared : fragments.get? name = some fragment)
    (idle : ¬ (name ∈ path ∨ fragment.busy = true))
    {built : Outcome (Within fragments (room - 1)) Expansion}
    {resolved : Outcome Expansions Expansion} (result : built.result = resolved.result)
    (entries : built.entries = resolved.entries)
    (along : Along (path ++ [name]) packets built.state resolved.state) :
    let left := endBuild fragment.line name pos built
    let kept := keepBuilt fragment.line name resolved
    left.result = kept.result ∧ left.entries = kept.entries ∧
      Along path packets left.state kept.state := by
  obtain ⟨answer, ⟨bench, bound⟩, _⟩ := built
  obtain ⟨_, found, _⟩ := resolved
  obtain ⟨rfl, free⟩ := along
  dsimp only at result entries free
  subst result entries
  have inner : ∀ outer ∈ path, found.get? outer = none := fun outer mem =>
    free outer (by simp [mem])
  cases answer with
  | error failure =>
    exact ⟨rfl, rfl, Bench.leave_failed (free name (by simp)) declared idle, inner⟩
  | ok expansion =>
    refine ⟨rfl, rfl, Bench.leave_kept expansion, fun outer mem => ?_⟩
    have different : outer ≠ name := fun same => idle (.inl (same ▸ mem))
    exact (OrderedMap.get?_insert _ _ _ _).trans ((if_neg different).trans (inner outer mem))

/-- The work with marks is the work along a path: the same result and the
same entries, and in the end the marks and the stack show the path that
they showed at the start. -/
theorem visit_mirrors (path : List String) (room : Nat) (name : String) (site : Site) :
    Job.Mirrors (Along path packets) (visit fragments room name site)
      (resolve fragments path name site) := by
  induction path using offPath_induction fragments.keys generalizing room name site with
  | step path ih =>
    rintro ⟨bench, bound⟩ known ⟨rfl, free⟩
    cases declared : fragments.get? name with
    | none =>
      rw [visit_undeclared _ declared, resolve_eq, declared]
      exact ⟨rfl, rfl, rfl, free⟩
    | some fragment =>
      rw [resolve_run declared]
      cases kept : known.get? name with
      | some expansion =>
        rw [visit_kept declared (markAlong_kept kept)]
        exact ⟨rfl, rfl, rfl, free⟩
      | none =>
        by_cases again : name ∈ path ∨ fragment.busy = true
        · simp only [if_pos again]
          rw [visit_busy declared (markAlong_busy kept declared again)]
          exact ⟨rfl, rfl, rfl, free⟩
        · -- the name goes on the stack on one side and on the path on the other
          have marked := markAlong_pending kept declared again
          have off : name ∉ path := fun mem => again (.inl mem)
          have entered : Along (path ++ [name]) packets
              (Within.enter ⟨Bench.along fragments path packets known, bound⟩ name
                (OrderedMap.mem_keys_of_get? declared) marked) known := by
            refine ⟨Bench.enter_along kept, fun outer mem => ?_⟩
            rcases List.mem_append.mp mem with mem | mem
            · exact free outer mem
            · obtain rfl : outer = name := by simpa using mem
              exact kept
          have lines := Job.mirrors_foldlM (Expansion.addLine_mirrors fun inner place =>
            ih name (OrderedMap.mem_keys_of_get? declared) off (room - 1) inner place)
            fragment.body.lines {}
          obtain ⟨result, entries, along⟩ := lines _ _ entered
          simp only [if_neg again]
          rw [visit_pending declared marked]
          exact endBuild_mirrors _ declared again result entries along

end Visit

/-! ## Packets and everything -/

namespace Marked

/-- Compiles a fragment, which is referred to at `site`. -/
def compileFragment (declared : Declarations) (name : String) (site : Site) :
    Job Bench Expansion := fun bench =>
  let outcome := visit declared.fragments (bench.pending declared.fragments).card name site
    ⟨bench, Nat.le_refl _⟩
  ⟨outcome.result, outcome.state.val, outcome.entries⟩

/-- The signatures that the lines of a packet give. -/
def assemble (declared : Declarations) (body : Body) : Job Bench SignatureSet := do
  let made ← body.lines.foldlM (Assembly.addLine (compileFragment declared)) {}
  made.finish

/-- Notes the signatures of a packet as its result. -/
def recordPacket (header : String) (set : SignatureSet) : Job Bench Unit := do
  Job.report (set.keys.map fun key => .trace (.packetKey header key))
  let bench ← Job.get
  Job.set { bench with packets := bench.packets.insert header set }

/-- Compiles the packet with a header, which may be written in either
case. -/
def compilePacket (declared : Declarations) (header : String) : Job Bench Unit :=
  let header := upper header
  match declared.packets.get? header with
  | none => Job.fail ((Cause.undeclaredPacket header).atSite ⟨0, header⟩)
  | some packet => do
    let bench ← Job.get
    if bench.packets.contains header then pure ()
    else do
      Job.report [.info packet.line (.packetStarted header packet.description)]
      let set ← assemble declared packet.body
      recordPacket header set

/-- Compiles a declared fragment for its own sake. -/
def compileDeclared (declared : Declarations) (fragment : Fragment) : Job Bench Unit := do
  let _ ← compileFragment declared fragment.name ⟨fragment.line, fragment.name⟩
  pure ()

/-- Compiles all fragments, then all packets. -/
def compileInOrder (declared : Declarations) : Job Bench Unit := do
  declared.fragments.values.forM (compileDeclared declared)
  declared.packets.keys.forM (compilePacket declared)

/-- Compiles everything; a failure is recorded. -/
def compileAll (declared : Declarations) : Job Bench Unit :=
  (compileInOrder declared).recordingFailure

end Marked

/-- The bench that shows the results, while nothing is being built. -/
def Results.bench (declared : Declarations) (results : Results) : Bench :=
  Bench.along declared.fragments [] results.packets results.expansions

/-- The bench shows the results, and nothing is being built. -/
def Shows (declared : Declarations) (bench : Bench) (results : Results) : Prop :=
  bench = results.bench declared

namespace Marked

variable {declared : Declarations}

theorem resolve_mirrors (packets : OrderedMap SignatureSet) (name : String) (site : Site) :
    Job.Mirrors (fun bench known => bench = Bench.along declared.fragments [] packets known)
      (compileFragment declared name site) (resolve declared.fragments [] name site) := by
  intro bench known shows
  obtain ⟨result, entries, along⟩ :=
    visit_mirrors [] _ name site ⟨bench, Nat.le_refl _⟩ known ⟨shows, by simp⟩
  exact ⟨result, entries, along.shows⟩

/-- Work on the expansions alone leaves the packets. -/
theorem onExpansions_mirrors {α : Type} {first : Job Bench α} {job : Job Expansions α}
    (h : ∀ packets, Job.Mirrors
      (fun bench known => bench = Bench.along declared.fragments [] packets known) first job) :
    Job.Mirrors (Shows declared) first (onExpansions job) :=
  fun bench results shows => h results.packets bench results.expansions shows

theorem compileFragment_mirrors (name : String) (site : Site) :
    Job.Mirrors (Shows declared) (compileFragment declared name site)
      (PacketLayout.compileFragment declared name site) :=
  onExpansions_mirrors fun packets => resolve_mirrors packets name site

theorem assemble_mirrors (body : Body) :
    Job.Mirrors (Shows declared) (assemble declared body)
      (onExpansions (PacketLayout.assemble declared.fragments body)) := by
  refine onExpansions_mirrors fun packets => ?_
  have lines := Job.mirrors_foldlM (Assembly.addLine_mirrors fun name site =>
    @resolve_mirrors declared packets name site) body.lines {}
  exact lines.bind Assembly.finish_mirrors

theorem recordPacket_mirrors (header : String) (set : SignatureSet) :
    Job.Mirrors (Shows declared) (recordPacket header set)
      (PacketLayout.recordPacket header set) := by
  refine Job.mirrors_report.bind fun _ => Job.mirrors_get_bind fun bench results shows => ?_
  refine Job.mirrors_set ?_
  rw [Shows] at shows ⊢
  rw [shows]
  rfl

theorem compilePacket_mirrors (header : String) :
    Job.Mirrors (Shows declared) (compilePacket declared header)
      (PacketLayout.compilePacket declared header) := by
  unfold compilePacket PacketLayout.compilePacket
  dsimp only
  cases declared.packets.get? (upper header) with
  | none => exact Job.mirrors_fail
  | some packet =>
    refine Job.mirrors_get_bind fun bench results shows => ?_
    have same : bench.packets = results.packets := by rw [shows]; rfl
    rw [same]
    split
    · exact Job.mirrors_pure
    · refine Job.mirrors_report.bind fun _ => (assemble_mirrors packet.body).bind fun set => ?_
      exact recordPacket_mirrors _ set

theorem compileAll_mirrors :
    Job.Mirrors (Shows declared) (compileAll declared) (PacketLayout.compileAll declared) := by
  refine Job.Mirrors.recordingFailure (Job.Mirrors.bind ?_ fun _ => ?_)
  · refine Job.mirrors_forM (fun fragment => ?_) _
    exact (compileFragment_mirrors _ _).bind fun _ => Job.mirrors_pure
  · exact Job.mirrors_forM compilePacket_mirrors _

end Marked

end PacketLayout
