/-
PacketLayout.Proofs.Compiling — what compiling comes to.

For every operation that compiles, one statement says what its result is
and what it does to the results kept so far. Declarations are only read,
so nothing has to be said of them.

What compiling does to the results is said once, by `Advance`, and what
it comes to is a plain function of the declarations and of the results it
starts on: `expandGiven`, `packetOutcome`, `eagerOutcome`. None of these
changes when the results advance. So the order in which things are
compiled, and what failed in between, cannot be told from any outcome.

* `compileFragment_ends`, `compilePacket_ends`, `compileAll_ends`: the
  outcome of the operation, and that the results advance.
* `Advance.expandGiven_eq`, `Advance.packetOutcome_eq`,
  `Advance.eagerOutcome_eq`: outcomes do not change on the way.
-/
import PacketLayout.Compilation
import PacketLayout.Proofs.Packet.Steps

namespace PacketLayout

open Text

/-! ## What compiling does to the results -/

/-- What compiling does to the results, whether it succeeds or fails.
Expansions are kept by `Grown`. Signatures are kept only of packets that
had none, and they are what the lines of the packet come to with the
expansions that are kept. -/
structure Advance (declared : Declarations) (before after : Results) : Prop where
  grown : Grown declared.fragments before.expansions after.expansions
  packets : ∀ header, after.packets.get? header = before.packets.get? header ∨
    before.packets.get? header = none ∧
      ∃ packet set, declared.packets.get? header = some packet ∧
        after.packets.get? header = some set ∧
        Assembly.assembled (remembered declared.fragments after.expansions) packet.body.lines
          = .ok set

/-- What compiling a packet comes to: the signatures that are kept, or
else those that its lines come to. -/
def packetOutcome (declared : Declarations) (results : Results) (header : String) :
    Except Failure SignatureSet :=
  match declared.packets.get? (upper header) with
  | none => .error ((Cause.undeclaredPacket (upper header)).atSite ⟨0, upper header⟩)
  | some packet =>
    match results.packets.get? (upper header) with
    | some set => .ok set
    | none =>
      Assembly.assembled (expandGiven results.expansions declared.fragments [])
        packet.body.lines

/-- What compiling a declared fragment for its own sake comes to. -/
def declaredOutcome (declared : Declarations) (results : Results) (fragment : Fragment) :
    Except Failure Expansion :=
  expandGiven results.expansions declared.fragments [] fragment.name
    ⟨fragment.line, fragment.name⟩

/-- What compiling everything comes to: the first failure among the
outcomes of the fragments and then of the packets, if there is one. -/
def eagerOutcome (declared : Declarations) (results : Results) : Except Failure Unit := do
  declared.fragments.values.forM fun fragment =>
    (declaredOutcome declared results fragment).map fun _ => ()
  declared.packets.keys.forM fun header =>
    (packetOutcome declared results header).map fun _ => ()

namespace Advance

variable {declared : Declarations} {before middle after : Results}

theorem refl : Advance declared before before :=
  ⟨.refl, fun _ => .inl rfl⟩

/-- Only expansions have been kept. -/
theorem ofGrown (grown : Grown declared.fragments before.expansions after.expansions)
    (same : after.packets = before.packets) : Advance declared before after :=
  ⟨grown, fun header => .inl (by rw [same])⟩

theorem trans (first : Advance declared before middle) (second : Advance declared middle after) :
    Advance declared before after := by
  refine ⟨first.grown.trans second.grown, fun header => ?_⟩
  rcases second.packets header with same | ⟨fresh, packet, set, there, kept, made⟩
  · rw [same]
    rcases first.packets header with still | ⟨fresh, packet, set, there, kept, made⟩
    · exact .inl still
    · refine .inr ⟨fresh, packet, set, there, kept, ?_⟩
      exact Assembly.assembled_imp (fun _ _ _ h => second.grown.remembered_mono h) made
  · refine .inr ⟨?_, packet, set, there, kept, made⟩
    rcases first.packets header with still | ⟨none, _⟩
    · rw [← still]; exact fresh
    · exact none

/-- Signatures that are kept stay. -/
theorem packets_mono (advance : Advance declared before after) {header : String}
    {set : SignatureSet} (kept : before.packets.get? header = some set) :
    after.packets.get? header = some set := by
  rcases advance.packets header with same | ⟨fresh, _⟩
  · rw [same]; exact kept
  · rw [kept] at fresh
    cases fresh

/-! ## Outcomes do not change -/

theorem expandGiven_eq (advance : Advance declared before after) :
    expandGiven after.expansions declared.fragments []
      = expandGiven before.expansions declared.fragments [] :=
  advance.grown.expandGiven_same (by simp)

/-- A packet that has been compiled on the way had the same outcome
before. -/
theorem packetOutcome_eq (advance : Advance declared before after) :
    packetOutcome declared after = packetOutcome declared before := by
  funext header
  unfold packetOutcome
  rw [advance.expandGiven_eq]
  cases there : declared.packets.get? (upper header) with
  | none => rfl
  | some packet =>
    rcases advance.packets (upper header) with same | ⟨fresh, other, set, found, kept, made⟩
    · rw [same]
    · obtain rfl : packet = other := by simpa [there] using found
      simp only [fresh, kept]
      exact (Assembly.assembled_imp
        (fun _ _ _ h => advance.grown.expandGiven_eq_ok (by simp) h) made).symm

theorem eagerOutcome_eq (advance : Advance declared before after) :
    eagerOutcome declared after = eagerOutcome declared before := by
  unfold eagerOutcome declaredOutcome
  rw [advance.expandGiven_eq, advance.packetOutcome_eq]

end Advance

/-! ## One fragment, one packet -/

variable {declared : Declarations}

theorem compileFragment_ends (declared : Declarations) (name : String) (site : Site)
    (results : Results) :
    (compileFragment declared name site).Ends results fun result after _ =>
      result = expandGiven results.expansions declared.fragments [] name site ∧
        Grown declared.fragments results.expansions after.expansions ∧
        after.packets = results.packets := by
  unfold compileFragment onExpansions
  rw [Job.ends_zoom]
  refine (resolve_ends [] name site results.expansions .refl (by simp)).imp
    fun result after _ resolved => ?_
  obtain ⟨found, grown, _, _⟩ := resolved
  refine ⟨?_, grown, rfl⟩
  subst found
  cases expandGiven results.expansions declared.fragments [] name site with
  | error failure => rfl
  | ok expansion => rfl

/-- A packet that has not been compiled: its signatures are kept if its
plain steps give any. -/
theorem compileFresh_ends {header : String} {packet : Packet} {results : Results}
    (found : declared.packets.get? (upper header) = some packet)
    (fresh : results.packets.get? (upper header) = none) :
    (compilePacket declared header).Ends results fun result after _ =>
      Advance declared results after ∧
        match Assembly.assembled (expandGiven results.expansions declared.fragments [])
            packet.body.lines with
        | .error failure => result = .error failure ∧ after.packets = results.packets
        | .ok set =>
          result = .ok () ∧ after.packets = results.packets.insert (upper header) set := by
  have absent : results.packets.contains (upper header) = false := by
    simp [OrderedMap.contains, fresh]
  unfold compilePacket
  simp only [found]
  rw [Job.ends_bind, Job.ends_get]
  simp only [absent, Bool.false_eq_true, if_false]
  rw [Job.ends_bind, Job.ends_report]
  dsimp only
  unfold onExpansions
  rw [Job.ends_bind, Job.ends_zoom]
  refine (assemble_ends declared.fragments packet.body results.expansions).imp
    fun result after _ h => ?_
  obtain ⟨rfl, grown, kept⟩ := h
  cases assembled : Assembly.assembled
      (expandGiven results.expansions declared.fragments []) packet.body.lines with
  | error failure => exact ⟨.ofGrown grown rfl, rfl, rfl⟩
  | ok set =>
    refine ⟨⟨grown, fun other => ?_⟩, rfl, rfl⟩
    by_cases same : other = upper header
    · subst same
      refine .inr ⟨fresh, packet, set, found, ?_, kept set assembled⟩
      exact (OrderedMap.get?_insert _ _ _ _).trans (if_pos rfl)
    · exact .inl ((OrderedMap.get?_insert _ _ _ _).trans (if_neg same))

/-- Whatever the header, and whether the packet has been compiled or
not: the signatures of a success are kept, and a failure changes nothing
about packets. -/
theorem compilePacket_ends (declared : Declarations) (header : String) (results : Results) :
    (compilePacket declared header).Ends results fun result after _ =>
      result = (packetOutcome declared results header).map (fun _ => ()) ∧
        Advance declared results after ∧
        (∀ set, packetOutcome declared results header = .ok set →
          after.packets.get? (upper header) = some set) ∧
        ∀ failure, result = .error failure → after.packets = results.packets := by
  unfold packetOutcome
  cases found : declared.packets.get? (upper header) with
  | none =>
    unfold compilePacket
    simp only [found]
    refine ⟨rfl, .refl, fun set none => ?_, fun _ _ => rfl⟩
    cases none
  | some packet =>
    cases known : results.packets.get? (upper header) with
    | some set =>
      have compiled : results.packets.contains (upper header) = true := by
        simp [OrderedMap.contains, known]
      unfold compilePacket
      simp only [found]
      rw [Job.ends_bind, Job.ends_get]
      simp only [compiled, if_true]
      refine ⟨rfl, .refl, fun other same => ?_, fun _ _ => rfl⟩
      cases same
      exact known
    | none =>
      refine (compileFresh_ends found known).imp fun result after _ ends => ?_
      obtain ⟨advance, ends⟩ := ends
      dsimp only
      cases assembled : Assembly.assembled
          (expandGiven results.expansions declared.fragments []) packet.body.lines with
      | error failure =>
        rw [assembled] at ends
        refine ⟨ends.1, advance, fun set none => ?_, fun _ _ => ends.2⟩
        cases none
      | ok set =>
        rw [assembled] at ends
        obtain ⟨done, kept⟩ := ends
        refine ⟨done, advance, fun other same => ?_, fun failure failed => ?_⟩
        · cases same
          rw [kept, OrderedMap.get?_insert, if_pos rfl]
        · rw [done] at failed
          cases failed

/-! ## Everything -/

theorem compileDeclared_ends (declared : Declarations) (fragment : Fragment)
    (results : Results) :
    (compileDeclared declared fragment).Ends results fun result after _ =>
      result = (declaredOutcome declared results fragment).map (fun _ => ()) ∧
        Advance declared results after := by
  unfold compileDeclared
  rw [Job.ends_bind]
  refine (compileFragment_ends declared fragment.name _ results).imp fun result after _ h => ?_
  obtain ⟨rfl, grown, same⟩ := h
  unfold declaredOutcome
  cases expandGiven results.expansions declared.fragments [] fragment.name
      ⟨fragment.line, fragment.name⟩ with
  | error failure => exact ⟨rfl, .ofGrown grown same⟩
  | ok expansion => exact ⟨rfl, .ofGrown grown same⟩

/-- Jobs one after another whose outcomes do not change on the way come
to the first failure among the outcomes they start with. What each of
them leaves is still there when all have succeeded. -/
theorem forM_ends {α : Type} (job : α → Job Results Unit)
    (outcome : Results → α → Except Failure Unit) (leaves : α → Results → Prop)
    (one : ∀ item results, (job item).Ends results fun result after _ =>
      result = outcome results item ∧ Advance declared results after ∧
        (result = .ok () → leaves item after))
    (stable : ∀ before after, Advance declared before after → outcome after = outcome before)
    (lasting : ∀ item before after, Advance declared before after →
      leaves item before → leaves item after)
    (items : List α) (results : Results) :
    (items.forM job).Ends results fun result after _ =>
      result = items.forM (outcome results) ∧ Advance declared results after ∧
        (result = .ok () → ∀ item ∈ items, leaves item after) := by
  induction items generalizing results with
  | nil => exact ⟨rfl, .refl, fun _ item mem => absurd mem List.not_mem_nil⟩
  | cons item rest ih =>
    rw [List.forM, List.forM, Job.ends_bind]
    refine (one item results).imp fun result middle _ h => ?_
    obtain ⟨rfl, advance, left⟩ := h
    cases first : outcome results item with
    | error failure =>
      refine ⟨rfl, advance, fun done => ?_⟩
      cases done
    | ok answer =>
      refine (ih middle).imp fun result after _ h => ?_
      obtain ⟨rfl, further, later⟩ := h
      refine ⟨?_, advance.trans further, fun done other mem => ?_⟩
      · rw [stable results middle advance]
        rfl
      · rcases List.mem_cons.mp mem with rfl | mem
        · exact lasting other middle after further (left first)
        · exact later done other mem

/-- All fragments, in any order. -/
theorem compileFragments_ends (declared : Declarations) (fragments : List Fragment)
    (results : Results) :
    (fragments.forM (compileDeclared declared)).Ends results fun result after _ =>
      result = fragments.forM (fun fragment =>
          (declaredOutcome declared results fragment).map fun _ => ()) ∧
        Advance declared results after := by
  refine (forM_ends (compileDeclared declared)
    (fun results fragment => (declaredOutcome declared results fragment).map fun _ => ())
    (fun _ _ => True) ?_ ?_ (fun _ _ _ _ _ => trivial) fragments results).imp
    fun result after _ h => ⟨h.1, h.2.1⟩
  · intro fragment results
    refine (compileDeclared_ends declared fragment results).imp fun result after _ h => ?_
    exact ⟨h.1, h.2, fun _ => trivial⟩
  · intro before after advance
    funext fragment
    unfold declaredOutcome
    rw [advance.expandGiven_eq]

/-- All packets, in any order; the signatures of a success are kept. -/
theorem compilePackets_ends (declared : Declarations) (headers : List String)
    (results : Results) :
    (headers.forM (compilePacket declared)).Ends results fun result after _ =>
      result = headers.forM (fun header =>
          (packetOutcome declared results header).map fun _ => ()) ∧
        Advance declared results after ∧
        (result = .ok () → ∀ header ∈ headers,
          ∃ set, after.packets.get? (upper header) = some set) := by
  refine forM_ends (compilePacket declared)
    (fun results header => (packetOutcome declared results header).map fun _ => ())
    (fun header results => ∃ set, results.packets.get? (upper header) = some set)
    ?_ ?_ ?_ headers results
  · intro header results
    refine (compilePacket_ends declared header results).imp fun result after _ h => ?_
    obtain ⟨rfl, advance, kept, _⟩ := h
    refine ⟨rfl, advance, fun done => ?_⟩
    cases outcome : packetOutcome declared results header with
    | error failure =>
      rw [outcome] at done
      cases done
    | ok set => exact ⟨set, kept set outcome⟩
  · intro before after advance
    rw [advance.packetOutcome_eq]
  · rintro header before after advance ⟨set, kept⟩
    exact ⟨set, advance.packets_mono kept⟩

/-- Compiling everything comes to the first failure among the outcomes;
if there is none, the signatures of all packets are kept. -/
theorem compileAll_ends (declared : Declarations) (results : Results) :
    (compileAll declared).Ends results fun result after _ =>
      result = eagerOutcome declared results ∧ Advance declared results after ∧
        (result = .ok () → ∀ header ∈ declared.packets.keys,
          ∃ set, after.packets.get? (upper header) = some set) := by
  have inOrder : (compileInOrder declared).Ends results fun result after _ =>
      result = eagerOutcome declared results ∧ Advance declared results after ∧
        (result = .ok () → ∀ header ∈ declared.packets.keys,
          ∃ set, after.packets.get? (upper header) = some set) := by
    unfold compileInOrder eagerOutcome
    rw [Job.ends_bind]
    refine (compileFragments_ends declared declared.fragments.values results).imp
      fun result middle _ h => ?_
    obtain ⟨rfl, advance⟩ := h
    cases declared.fragments.values.forM fun fragment =>
        (declaredOutcome declared results fragment).map fun _ => () with
    | error failure =>
      refine ⟨rfl, advance, fun done => ?_⟩
      cases done
    | ok answer =>
      refine (compilePackets_ends declared declared.packets.keys middle).imp
        fun result after _ h => ?_
      obtain ⟨rfl, further, kept⟩ := h
      rw [advance.packetOutcome_eq] at kept ⊢
      exact ⟨rfl, advance.trans further, kept⟩
  unfold compileAll
  rw [Job.ends_recordingFailure]
  refine inOrder.imp fun result after _ h => ?_
  cases result with
  | error failure => exact h
  | ok answer => exact h

end PacketLayout
