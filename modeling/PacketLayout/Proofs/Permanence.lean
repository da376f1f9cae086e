/-
PacketLayout.Proofs.Permanence — what stays for good.

Whatever is done with a workspace, and whatever of it fails, some things
stay as they are: the declarations in their order, their lines, the
expansions and signatures that have been compiled, and so the entries of
the table. `Lasts` puts all of this together for two workspaces of a
session.

Compiling does mark fragments and take marks back on the way. The marks
here are those that such a run leaves, so a mark of a compiled fragment
is never taken back.

* `perform_refused`: a change that is refused changes nothing.
* `session_lasts`: what stays, from any workspace of a session on.
-/
import PacketLayout.Proofs.Completeness
import PacketLayout.Proofs.Growing
import PacketLayout.Proofs.Retry
import PacketLayout.Proofs.Staleness

namespace PacketLayout

open Text

/-! ## Refusals -/

/-- If the work fails, it has done nothing and reported nothing. -/
def Job.FailsClean {σ α : Type} (job : Job σ α) : Prop :=
  ∀ state, job.Ends state fun result left entries =>
    ∀ failure, result = .error failure → left = state ∧ entries = []

theorem changeDeclarations_failsClean (change : Declarations → Except Failure Declarations) :
    (changeDeclarations change).FailsClean := by
  intro declared
  rw [ends_changeDeclarations]
  cases change declared with
  | error failure => exact fun _ _ => ⟨rfl, rfl⟩
  | ok after => exact fun _ same => nomatch same

/-- What cannot fail may come behind. -/
theorem Job.FailsClean.bind {σ α β : Type} {first : Job σ β} {next : β → Job σ α}
    (clean : first.FailsClean)
    (sure : ∀ answer state, ∃ later, (next answer state).result = .ok later) :
    (first >>= next).FailsClean := by
  intro state
  rw [ends_bind]
  refine (clean state).imp fun result left entries known => ?_
  cases result with
  | error failure => exact fun _ _ => known failure rfl
  | ok answer =>
    intro failure failed
    obtain ⟨later, succeeds⟩ := sure answer left
    rw [succeeds] at failed
    cases failed

theorem declareFragment_failsClean (name : String) (site : Site) :
    (declareFragment name site).FailsClean :=
  (changeDeclarations_failsClean _).bind fun _ _ => ⟨_, rfl⟩

theorem declarePacket_failsClean (description header : String) (site : Site) :
    (declarePacket description header site).FailsClean :=
  (changeDeclarations_failsClean _).bind fun _ _ => ⟨_, rfl⟩

/-- The failure, if there is one. -/
def failure? {α : Type} : Except Failure α → Option Failure
  | .error failure => some failure
  | .ok _ => none

namespace Workspace

/-- Why an operation that asks for a single change of the declarations is
refused, if it is. -/
def refusal (workspace : Workspace) : Operation → Option Failure
  | .registerFragment name site => failure? (workspace.registerFragment name site).1
  | .registerPacket description header site =>
    failure? (workspace.registerPacket description header site).1
  | .addFragment fragment raw => failure? (workspace.addFragment fragment raw).1
  | .addPacket packet raw => failure? (workspace.addPacket packet raw).1
  | .addLine owner site => failure? (workspace.addLine owner site).1
  | .load _ | .compileFragment .. | .compilePacket _ | .compileAll | .record _ => none

theorem onDeclarations_refused {α : Type} {job : Job Declarations α} (clean : job.FailsClean)
    {workspace : Workspace} {failure : Failure}
    (refused : failure? (workspace.onDeclarations job).1 = some failure) :
    (workspace.onDeclarations job).2 = workspace := by
  have failed : (job workspace.declared).result = .error failure := by
    change failure? (job workspace.declared).result = some failure at refused
    cases result : (job workspace.declared).result with
    | error other =>
      rw [result] at refused
      cases refused
      rfl
    | ok answer =>
      rw [result] at refused
      cases refused
  obtain ⟨left, entries⟩ := clean workspace.declared failure failed
  unfold onDeclarations
  dsimp only
  rw [left, entries, List.append_nil]

/-- A change that is refused changes nothing. -/
theorem perform_refused {workspace : Workspace} {operation : Operation} {failure : Failure}
    (refused : workspace.refusal operation = some failure) :
    workspace.perform operation = workspace := by
  cases operation with
  | registerFragment name site =>
    exact onDeclarations_refused (declareFragment_failsClean name site) refused
  | registerPacket description header site =>
    exact onDeclarations_refused (declarePacket_failsClean description header site) refused
  | addFragment fragment raw =>
    exact onDeclarations_refused (changeDeclarations_failsClean _) refused
  | addPacket packet raw =>
    exact onDeclarations_refused (changeDeclarations_failsClean _) refused
  | addLine owner site =>
    exact onDeclarations_refused (changeDeclarations_failsClean _) refused
  | _ => cases refused

/-! ## What stays -/

/-- What there is in the earlier workspace is in the later one. -/
structure Lasts (earlier later : Workspace) : Prop where
  /-- The fragments stay where they are, and new ones come behind. -/
  fragmentNames : earlier.declared.fragments.keys <+: later.declared.fragments.keys
  packetHeaders : earlier.declared.packets.keys <+: later.declared.packets.keys
  /-- A declaration keeps its header and its numbered lines. -/
  fragments : ∀ name fragment, earlier.declared.fragments.get? name = some fragment →
    ∃ body, later.declared.fragments.get? name = some { fragment with body } ∧
      fragment.body.lines.Sublist body.lines
  packets : ∀ header packet, earlier.declared.packets.get? header = some packet →
    ∃ body, later.declared.packets.get? header = some { packet with body } ∧
      packet.body.lines.Sublist body.lines
  /-- A fragment that has been compiled is marked so for good. -/
  compiled : ∀ name expansion, earlier.bench.marks name = .compiled expansion →
    later.bench.marks name = .compiled expansion
  signatures : ∀ header set, earlier.results.packets.get? header = some set →
    later.results.packets.get? header = some set
  /-- The entries of the table stay, one behind the other. -/
  table : ∀ time other, (earlier.table time).packets.entries.Sublist
    (later.table other).packets.entries

/-- A mark says that a fragment has been compiled if its expansion is
kept. -/
theorem marks_eq_compiled_iff {workspace : Workspace} {name : String} {expansion : Expansion} :
    workspace.bench.marks name = .compiled expansion ↔
      workspace.results.expansions.get? name = some expansion := by
  change markAlong _ [] workspace.results.expansions name = _ ↔ _
  unfold markAlong
  cases workspace.results.expansions.get? name with
  | some kept => simp
  | none => dsimp only; split <;> simp

/-- The entry of a compiled packet stays. -/
theorem table_sublist {earlier later : Workspace} (named : earlier.declared.Named)
    (still : later.declared.Named) (grown : later.declared.Continues earlier.declared)
    (stays : later.results.Includes earlier.results) (time other : Nat) :
    (earlier.table time).packets.entries.Sublist (later.table other).packets.entries := by
  unfold table
  rw [SignatureTable.entries_assemble_filterMap named.packets,
    SignatureTable.entries_assemble_filterMap still.packets]
  refine grown.packets.filterMap_sublist fun header packet longer entry more made => ?_
  obtain ⟨body, rfl, _⟩ := more
  obtain ⟨set, kept, rfl⟩ := Option.map_eq_some_iff.mp made
  exact Option.map_eq_some_iff.mpr ⟨set, stays.packets header set kept, rfl⟩

/-- A session goes on from any of its workspaces. All that was there stays
for good, every declaration stands under its own name, a change that is
refused leaves the workspace as it is, and compiling with marks, which are
set and taken back on the way, leaves the marks spoken of here. -/
theorem session_lasts {earlier : Workspace} (reached : Reached Operation.Any earlier)
    (operations : List Operation) :
    earlier.Lasts (operations.foldl perform earlier) ∧
    (operations.foldl perform earlier).declared.Named ∧
    (∀ operation failure,
      (operations.foldl perform earlier).refusal operation = some failure →
      (operations.foldl perform earlier).perform operation = operations.foldl perform earlier) ∧
    ∀ call, (Marked.compile (operations.foldl perform earlier).declared call
        (operations.foldl perform earlier).bench).state
      = ((operations.foldl perform earlier).compile call).2.bench := by
  have later := reached.session (session_any earlier operations)
  have grown := foldl_perform_continues operations earlier
  have stays := foldl_perform_mono operations earlier
  have named := named_of_reached later
  refine ⟨?_, named, fun operation failure => perform_refused,
    fun call => (compile_marked _ call).2⟩
  refine ⟨grown.fragments.keys, grown.packets.keys, fun name fragment there => ?_,
    fun header packet there => ?_, fun name expansion marked => ?_, stays.packets,
    table_sublist (named_of_reached reached) named grown stays⟩
  · obtain ⟨_, here, body, rfl, more⟩ := grown.fragments.get? name fragment there
    exact ⟨body, here, more⟩
  · obtain ⟨_, here, body, rfl, more⟩ := grown.packets.get? header packet there
    exact ⟨body, here, more⟩
  · rw [marks_eq_compiled_iff] at marked ⊢
    exact stays.expansions name expansion marked

/-- The small session, in which the packet has been compiled. -/
def compiledSample : Workspace :=
  sample.perform (.compilePacket "6f")

/-- What is done with it later: two changes are refused, a line is added to
a compiled fragment, a source is loaded, and compiling fails. -/
def laterSession : List Operation :=
  [.registerFragment "Path" ⟨16, "Fragment[Path]"⟩,
   .addLine (.packet "6F") ⟨9, "id:$2"⟩,
   .addLine (.fragment "Path") ⟨17, "end:$1"⟩,
   .load "<parser>\nFragment[Ring]\n+ Fragment[Ring]\nPacket[Halt]:0a\n</parser>\n",
   .compileAll]

/-- The path stays as it was compiled, the packet stays in the table, and
the path can still not be declared again. -/
theorem session_lasts_sample :
    compiledSample.bench.marks "Path"
      = .compiled ⟨[.repeatStart, .size 2, .repeatEnd], [⟨"x", none, none, none⟩]⟩ ∧
    (laterSession.foldl perform compiledSample).bench.marks "Path"
      = .compiled ⟨[.repeatStart, .size 2, .repeatEnd], [⟨"x", none, none, none⟩]⟩ ∧
    (compiledSample.table 0).packets.keys = ["6F"] ∧
    (compiledSample.table 0).packets.entries.Sublist
      ((laterSession.foldl perform compiledSample).table 1).packets.entries ∧
    (laterSession.foldl perform compiledSample).perform
        (.registerFragment "Path" ⟨16, "Fragment[Path]"⟩)
      = laterSession.foldl perform compiledSample := by
  have marked : compiledSample.bench.marks "Path"
      = .compiled ⟨[.repeatStart, .size 2, .repeatEnd], [⟨"x", none, none, none⟩]⟩ := by
    decide +kernel
  have refused : (laterSession.foldl perform compiledSample).refusal
      (.registerFragment "Path" ⟨16, "Fragment[Path]"⟩)
      = some ((Cause.duplicateFragment "Path").atSite ⟨16, "Fragment[Path]"⟩) := by
    decide +kernel
  have reached : Reached Operation.Any compiledSample := reached_sample.perform trivial
  obtain ⟨lasts, _, unchanged, _⟩ := session_lasts reached laterSession
  exact ⟨marked, lasts.compiled "Path" _ marked, by decide +kernel, lasts.table 0 1,
    unchanged _ _ refused⟩

end Workspace

end PacketLayout
