/-
PacketLayout.Proofs.Retry — what a failure leaves behind.

A call that fails may have compiled some fragments on the way, and they
stay compiled. Nothing else is left of it: no fragment stays marked as
busy, no name stays on the stack, and the packet that failed has no
signatures. What has been kept on the way does not change what any call
comes to, so the same call fails in the same way again.

The marks and the stack are those of a run with marks, which is the same
work: it is the run that could leave some of them behind.

* `visit_failed`: a reference that fails while other fragments are being
  built.
* `Workspace.compile_failed`: all of this, for every call on every
  workspace.
-/
import PacketLayout.Proofs.Marking
import PacketLayout.Proofs.Session

namespace PacketLayout

open Text

/-! ## Calls -/

/-- A call that compiles. -/
inductive Call where
  | fragment (name : String) (site : Site)
  | packet (header : String)
  | all
  deriving DecidableEq

/-- The call, made with marks. -/
def Marked.compile (declared : Declarations) : Call → Job Bench Unit
  | .fragment name site => fun bench =>
    let built := Marked.compileFragment declared name site bench
    ⟨built.result.map fun _ => (), built.state, built.entries⟩
  | .packet header => Marked.compilePacket declared header
  | .all => Marked.compileAll declared

namespace Workspace

/-- Makes the call; of a fragment, only whether it can be compiled. -/
def compile (workspace : Workspace) : Call → Except Failure Unit × Workspace
  | .fragment name site =>
    ((workspace.compileFragment name site).1.map fun _ => (),
      (workspace.compileFragment name site).2)
  | .packet header => workspace.compilePacket header
  | .all => workspace.compileAll

/-- The bench that shows the workspace. -/
def bench (workspace : Workspace) : Bench :=
  workspace.results.bench workspace.declared

end Workspace

/-- What a call comes to. -/
def Call.outcome (declared : Declarations) (results : Results) : Call → Except Failure Unit
  | .fragment name site =>
    (expandGiven results.expansions declared.fragments [] name site).map fun _ => ()
  | .packet header => (packetOutcome declared results header).map fun _ => ()
  | .all => eagerOutcome declared results

variable {declared : Declarations} {before after : Results}

/-- No call has another outcome when results have been kept on the
way. -/
theorem Advance.outcome_eq (advance : Advance declared before after) (call : Call) :
    call.outcome declared after = call.outcome declared before := by
  cases call with
  | fragment name site => simp only [Call.outcome, advance.expandGiven_eq]
  | packet header => simp only [Call.outcome, advance.packetOutcome_eq]
  | all => simp only [Call.outcome, advance.eagerOutcome_eq]

/-! ## Marks -/

/-- What has been kept on the way is the expansion of a declared fragment
that nobody else is building. -/
theorem Grown.idle_of_new {fragments : OrderedMap Fragment} {given known : Expansions}
    (grown : Grown fragments given known) {name : String} {expansion : Expansion}
    (new : given.get? name = none) (kept : known.get? name = some expansion) :
    ∃ fragment, fragments.get? name = some fragment ∧ fragment.busy = false := by
  induction grown with
  | refl =>
    rw [new] at kept
    cases kept
  | @keep known newest fragment whole before _ declared idle _ ih =>
    rw [OrderedMap.get?_insert] at kept
    split at kept
    · rename_i same
      exact ⟨fragment, same ▸ declared, idle⟩
    · exact ih kept

/-- The mark of a fragment stays, or else its building has not begun
before, and now it has been compiled. -/
theorem Grown.marks {fragments : OrderedMap Fragment} {given known : Expansions}
    (grown : Grown fragments given known) {path : List String}
    (free : ∀ outer ∈ path, known.get? outer = none) (name : String) :
    markAlong fragments path known name = markAlong fragments path given name ∨
      markAlong fragments path given name = .pending ∧
        ∃ expansion, markAlong fragments path known name = .compiled expansion := by
  cases old : given.get? name with
  | some expansion =>
    rw [markAlong_kept old, markAlong_kept (grown.get?_mono old)]
    exact .inl rfl
  | none =>
    cases new : known.get? name with
    | none => exact .inl (by simp [markAlong, old, new])
    | some expansion =>
      obtain ⟨fragment, there, idle⟩ := grown.idle_of_new old new
      have off : name ∉ path := fun mem => by
        rw [free name mem] at new
        cases new
      refine .inr ⟨markAlong_pending old there (by simp [off, idle]), expansion, ?_⟩
      exact markAlong_kept new

/-- No fragment is marked as busy that was not, and none is no longer. -/
theorem Grown.busy_iff {fragments : OrderedMap Fragment} {given known : Expansions}
    (grown : Grown fragments given known) {path : List String}
    (free : ∀ outer ∈ path, known.get? outer = none) (name : String) :
    markAlong fragments path known name = .busy ↔ markAlong fragments path given name = .busy := by
  rcases grown.marks free name with same | ⟨pending, expansion, compiled⟩
  · rw [same]
  · rw [pending, compiled]
    simp

/-- What a resolution comes to, and what it keeps. -/
theorem resolve_result {fragments : OrderedMap Fragment} {path : List String}
    {known : Expansions} (free : ∀ outer ∈ path, known.get? outer = none) (name : String)
    (site : Site) :
    (resolve fragments path name site known).result
        = expandGiven known fragments path name site ∧
      Grown fragments known (resolve fragments path name site known).state := by
  have resolved : (resolve fragments path name site).Ends known fun found after _ =>
      Resolved fragments path (fun expand => expand name site) id known known found after :=
    resolve_ends path name site known .refl free
  refine ⟨resolved.found.trans ?_, resolved.grown⟩
  cases expandGiven known fragments path name site with
  | error failure => rfl
  | ok expansion => rfl

/-- A reference that is met while the fragments on `path` are being built
and fails: the stack shows the path again, the same fragments are marked
as busy, and the same reference fails again in the same way. -/
theorem visit_failed {fragments : OrderedMap Fragment} {path : List String}
    {packets : OrderedMap SignatureSet} {room : Nat} {bench : Within fragments room}
    {known : Expansions} (along : Along path packets bench known) {name : String} {site : Site}
    {failure : Failure} {left : Within fragments room} {entries : Journal}
    (failed : visit fragments room name site bench = ⟨.error failure, left, entries⟩) :
    left.val.stack = bench.val.stack ∧
      (∀ other, left.val.marks other = .busy ↔ bench.val.marks other = .busy) ∧
      (visit fragments room name site left).result = .error failure := by
  obtain ⟨result, _, after⟩ := visit_mirrors path room name site bench known along
  rw [failed] at result after
  obtain ⟨first, grown⟩ := resolve_result along.free name site
  refine ⟨?_, fun other => ?_, ?_⟩
  · rw [after.shows, along.shows]
    rfl
  · rw [after.shows, along.shows]
    exact grown.busy_iff after.free other
  · obtain ⟨again, _, _⟩ := visit_mirrors path room name site left _ after
    rw [again, (resolve_result after.free name site).1,
      grown.expandGiven_same fun outer mem kept => absurd (after.free outer mem) kept, ← first,
      ← result]

/-! ## Failures -/

namespace Workspace

/-- A call comes to its outcome, and the results advance. -/
theorem compile_result (workspace : Workspace) (call : Call) :
    (workspace.compile call).1 = call.outcome workspace.declared workspace.results ∧
      (workspace.compile call).2.declared = workspace.declared ∧
      Advance workspace.declared workspace.results (workspace.compile call).2.results := by
  cases call with
  | fragment name site =>
    obtain ⟨result, grown, same⟩ :=
      compileFragment_ends workspace.declared name site workspace.results
    exact ⟨congrArg (Except.map fun _ => ()) result, rfl, .ofGrown grown same⟩
  | packet header =>
    obtain ⟨result, advance, _⟩ :=
      compilePacket_ends workspace.declared header workspace.results
    exact ⟨result, rfl, advance⟩
  | all =>
    obtain ⟨result, advance, _⟩ := compileAll_ends workspace.declared workspace.results
    exact ⟨result, rfl, advance⟩

/-- A call for one declaration that fails leaves all packets as they
were. -/
theorem packets_of_failed {workspace : Workspace} {call : Call} {failure : Failure}
    (failed : (workspace.compile call).1 = .error failure) (single : call ≠ .all) :
    (workspace.compile call).2.results.packets = workspace.results.packets := by
  cases call with
  | fragment name site =>
    exact (compileFragment_ends workspace.declared name site workspace.results).2.2
  | packet header =>
    exact (compilePacket_ends workspace.declared header workspace.results).2.2.2 failure failed
  | all => exact absurd rfl single

/-- A call with marks is the call. -/
theorem compile_marked (workspace : Workspace) (call : Call) :
    (Marked.compile workspace.declared call workspace.bench).result
        = (workspace.compile call).1 ∧
      (Marked.compile workspace.declared call workspace.bench).state
        = (workspace.compile call).2.bench := by
  cases call with
  | fragment name site =>
    obtain ⟨result, _, shows⟩ :=
      Marked.compileFragment_mirrors name site workspace.bench workspace.results rfl
    exact ⟨congrArg (Except.map fun _ => ()) result, shows⟩
  | packet header =>
    obtain ⟨result, _, shows⟩ :=
      Marked.compilePacket_mirrors header workspace.bench workspace.results rfl
    exact ⟨result, shows⟩
  | all =>
    obtain ⟨result, _, shows⟩ :=
      Marked.compileAll_mirrors workspace.bench workspace.results rfl
    exact ⟨result, shows⟩

/-- A call that fails, on any workspace. Made with marks it fails in the
same way, and leaves the bench that shows what is left. There the stack is
what it was, the same fragments are marked as busy, any other mark stays or
goes from pending to compiled, and a call for one declaration leaves all
packets as they are. The declarations stay as they are, and the same call
fails again in the same way, with marks or without.

The stack and the marks are also taken back where a reference fails inside
a call, while the fragments on its path are being built. -/
theorem compile_failed {workspace after : Workspace} {call : Call} {failure : Failure}
    (failed : workspace.compile call = (.error failure, after)) :
    (Marked.compile workspace.declared call workspace.bench).result = .error failure ∧
    (Marked.compile workspace.declared call workspace.bench).state = after.bench ∧
    (Marked.compile workspace.declared call workspace.bench).state.stack
      = workspace.bench.stack ∧
    (∀ name, (Marked.compile workspace.declared call workspace.bench).state.marks name = .busy ↔
      workspace.bench.marks name = .busy) ∧
    (∀ name,
      (Marked.compile workspace.declared call workspace.bench).state.marks name
          = workspace.bench.marks name ∨
        workspace.bench.marks name = .pending ∧
          ∃ expansion, (Marked.compile workspace.declared call workspace.bench).state.marks name
            = .compiled expansion) ∧
    (call ≠ .all →
      (Marked.compile workspace.declared call workspace.bench).state.packets
          = workspace.bench.packets ∧
        after.results.packets = workspace.results.packets) ∧
    after.declared = workspace.declared ∧
    (Marked.compile workspace.declared call
        (Marked.compile workspace.declared call workspace.bench).state).result
      = .error failure ∧
    (after.compile call).1 = .error failure ∧
    (∀ (path : List String) (packets : OrderedMap SignatureSet) (room : Nat)
      (bench left : Within workspace.declared.fragments room) (known : Expansions) (name : String)
      (site : Site) (inner : Failure) (entries : Journal),
      Along path packets bench known →
      visit workspace.declared.fragments room name site bench = ⟨.error inner, left, entries⟩ →
      left.val.stack = bench.val.stack ∧
        (∀ other, left.val.marks other = .busy ↔ bench.val.marks other = .busy) ∧
        (visit workspace.declared.fragments room name site left).result = .error inner) := by
  obtain ⟨result, same, advance⟩ := compile_result workspace call
  obtain ⟨marked, shown⟩ := compile_marked workspace call
  have packets := packets_of_failed (congrArg Prod.fst failed)
  rw [failed] at result same advance marked shown packets
  have shows : after.bench = after.results.bench workspace.declared :=
    congrArg after.results.bench same
  have again : (after.compile call).1 = .error failure := by
    rw [(compile_result after call).1, same, advance.outcome_eq]
    exact result.symm
  have markedAgain := (compile_marked after call).1
  rw [same, again] at markedAgain
  rw [shown]
  refine ⟨marked, rfl, rfl, ?_, ?_, ?_, same, markedAgain, again, ?_⟩
  · intro name
    rw [shows]
    exact advance.grown.busy_iff (by simp) name
  · intro name
    rw [shows]
    exact advance.grown.marks (by simp) name
  · intro single
    exact ⟨packets single, packets single⟩
  · intro path packets room bench left known name site inner entries along stopped
    exact visit_failed along stopped

/-- A packet that refers to a fragment that can be compiled, and then to
one that someone else is building. -/
def stuckSession : List Operation :=
  [.registerFragment "Point" ⟨1, "Fragment[Point]"⟩,
   .addLine (.fragment "Point") ⟨2, "x:$2"⟩,
   .addFragment { name := "Held", line := 3, busy := true } "Fragment[Held]",
   .registerPacket "Move" "6f" ⟨4, "Packet[Move]:6f"⟩,
   .addLine (.packet "6F") ⟨5, "+ Fragment[Point]"⟩,
   .addLine (.packet "6F") ⟨6, "+ Fragment[Held]"⟩]

/-- The workspace with the packet that cannot be compiled. -/
def stuck : Workspace :=
  stuckSession.foldl Workspace.perform {}

/-- The point stays compiled, and the packet fails again. -/
theorem compile_failed_stuck :
    (stuck.compile (.packet "6f")).1
      = .error ((Cause.fragmentCycle "Held" ["Held"]).atSite ⟨6, "+ Fragment[Held]"⟩) ∧
    stuck.bench.marks "Point" = .pending ∧
    (stuck.compile (.packet "6f")).2.bench.marks "Point"
      = .compiled ⟨[.size 2], [⟨"x", none, none, none⟩]⟩ ∧
    (stuck.compile (.packet "6f")).2.bench.marks "Held" = .busy ∧
    ((stuck.compile (.packet "6f")).2.compile (.packet "6f")).1
      = .error ((Cause.fragmentCycle "Held" ["Held"]).atSite ⟨6, "+ Fragment[Held]"⟩) := by
  have failed : (stuck.compile (.packet "6f")).1
      = .error ((Cause.fragmentCycle "Held" ["Held"]).atSite ⟨6, "+ Fragment[Held]"⟩) := by
    decide +kernel
  have held : stuck.bench.marks "Held" = .busy := by decide +kernel
  obtain ⟨_, shown, _, busy, _, _, _, _, again, _⟩ := compile_failed (Prod.ext failed rfl)
  rw [shown] at busy
  exact ⟨failed, by decide +kernel, by decide +kernel, (busy "Held").mpr held, again⟩

end Workspace

end PacketLayout
