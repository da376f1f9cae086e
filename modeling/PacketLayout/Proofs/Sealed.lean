/-
PacketLayout.Proofs.Sealed — sessions that leave alone what has been
compiled.

A session is sealed if no line is added to a declaration after it has
been compiled; a line that is refused is not added. Then not only the
kept expansions but also the kept signatures are those that the
declarations give, and what compiling comes to can be said without the
results: `expandAfresh` for a fragment and `packetAfresh` for a packet.

* `settled_of_reached`: all that is kept agrees with the declarations, in
  every workspace of a sealed session.
* `compileFragment_settled`, `compilePacket_settled`: what compiling comes
  to in such a workspace.
-/
import PacketLayout.Proofs.Expansion.Coherence

namespace PacketLayout

open Text

/-! ## Signatures that agree with the declarations -/

/-- What compiling the packet with a header comes to, with every fragment
expanded afresh and no signatures kept. -/
def packetAfresh (declared : Declarations) (header : String) : Except Failure SignatureSet :=
  match declared.packets.get? (upper header) with
  | none => .error ((Cause.undeclaredPacket (upper header)).atSite ⟨0, upper header⟩)
  | some packet =>
    Assembly.assembled (expandAfresh declared.fragments []) packet.body.lines

/-- All that is kept agrees with the declarations: the signatures of a
packet are made of its lines with the expansions that are kept. -/
structure Settled (results : Results) (declared : Declarations) : Prop where
  coherent : Coherent results.expansions declared
  packets : ∀ header set, results.packets.get? header = some set →
    ∃ packet, declared.packets.get? header = some packet ∧
      Assembly.assembled (remembered declared.fragments results.expansions) packet.body.lines
        = .ok set

/-- What a line is added to has not been compiled. -/
def Owner.Open (results : Results) : Owner → Prop
  | .fragment name => results.expansions.get? name = none
  | .packet header => results.packets.get? header = none

instance (results : Results) (owner : Owner) : Decidable (owner.Open results) :=
  match owner with
  | .fragment name => inferInstanceAs (Decidable (results.expansions.get? name = none))
  | .packet header => inferInstanceAs (Decidable (results.packets.get? header = none))

theorem Owner.Open.uncompiled {results : Results} {owner : Owner} (isOpen : owner.Open results) :
    owner.Uncompiled results.expansions := by
  cases owner with
  | fragment name => exact isOpen
  | packet header => trivial

/-- With more fragments declared, no less is remembered. -/
theorem remembered_wider {fragments others : OrderedMap Fragment} {known : Expansions}
    (more : ∀ name, fragments.get? name ≠ none → others.get? name ≠ none)
    {name : String} {site : Site} {expansion : Expansion}
    (h : remembered fragments known name site = .ok expansion) :
    remembered others known name site = .ok expansion := by
  obtain ⟨⟨fragment, there⟩, kept⟩ := remembered_eq_ok_iff.mp h
  have still : others.get? name ≠ none := more name (by simp [there])
  exact remembered_eq_ok_iff.mpr ⟨Option.ne_none_iff_exists'.mp still, kept⟩

namespace Settled

variable {results later : Results} {declared after : Declarations}

/-- Fragments may be added, and packets that are not kept may change. -/
theorem transfer (settled : Settled results declared)
    (coherent : Coherent results.expansions after)
    (more : ∀ name, declared.fragments.get? name ≠ none → after.fragments.get? name ≠ none)
    (same : ∀ header, results.packets.get? header ≠ none →
      after.packets.get? header = declared.packets.get? header) : Settled results after := by
  refine ⟨coherent, fun header set kept => ?_⟩
  obtain ⟨packet, there, made⟩ := settled.packets header set kept
  refine ⟨packet, ?_, Assembly.assembled_imp (fun _ _ _ => remembered_wider more) made⟩
  rw [same header (by simp [kept]), there]

theorem addFragment (settled : Settled results declared) {fragment : Fragment} {raw : String}
    (idle : fragment.busy = false) (added : declared.addFragment fragment raw = .ok after) :
    Settled results after ∧ Owner.Open results (.fragment fragment.name) := by
  obtain ⟨coherent, uncompiled⟩ := settled.coherent.addFragment idle added
  obtain ⟨_, rfl⟩ := Declarations.addFragment_ok added
  refine ⟨settled.transfer coherent (fun _ => OrderedMap.get?_insert_ne_none) fun _ _ => rfl, ?_⟩
  exact uncompiled

theorem addPacket (settled : Settled results declared) {packet : Packet} {raw : String}
    (added : declared.addPacket packet raw = .ok after) :
    Settled results after ∧ Owner.Open results (.packet packet.header) := by
  have coherent := settled.coherent.addPacket added
  obtain ⟨free, rfl⟩ := Declarations.addPacket_ok added
  have unkept : results.packets.get? packet.header = none := by
    cases kept : results.packets.get? packet.header with
    | none => rfl
    | some set =>
      obtain ⟨other, there, _⟩ := settled.packets _ set kept
      rw [there] at free
      cases free
  refine ⟨settled.transfer coherent (fun _ h => h) fun header kept => ?_, unkept⟩
  have different : header ≠ packet.header := fun same => kept (same ▸ unkept)
  rw [OrderedMap.get?_insert, if_neg different]

theorem addLine (settled : Settled results declared) {owner : Owner} {site : Site}
    (isOpen : owner.Open results) (added : declared.addLine owner site = .ok after) :
    Settled results after := by
  have coherent := settled.coherent.addLine isOpen.uncompiled added
  cases owner with
  | fragment name =>
    obtain ⟨_, _, _, _, rfl⟩ := Declarations.addLine_fragment_ok added
    exact settled.transfer coherent (fun _ => OrderedMap.get?_insert_ne_none) fun _ _ => rfl
  | packet header =>
    obtain ⟨_, _, _, _, rfl⟩ := Declarations.addLine_packet_ok added
    refine settled.transfer coherent (fun _ h => h) fun other kept => ?_
    have different : other ≠ header := fun same => kept (same ▸ isOpen)
    rw [OrderedMap.get?_insert, if_neg different]

theorem loadKeeps (results : Results) : LoadKeeps (Settled results) (Owner.Open results) where
  addFragment _ _ _ _ settled added := settled.addFragment rfl added
  addPacket _ _ _ _ _ settled added := settled.addPacket added
  addLine _ _ _ _ settled isOpen added := settled.addLine isOpen added

/-- Compiling keeps only what agrees with the declarations. -/
theorem advance (settled : Settled results declared) (advance : Advance declared results later) :
    Settled later declared := by
  refine ⟨⟨settled.coherent.idle, settled.coherent.grown.trans advance.grown⟩,
    fun header set kept => ?_⟩
  rcases advance.packets header with same | ⟨_, packet, other, there, new, made⟩
  · rw [same] at kept
    obtain ⟨packet, there, made⟩ := settled.packets header set kept
    exact ⟨packet, there,
      Assembly.assembled_imp (fun _ _ _ h => advance.grown.remembered_mono h) made⟩
  · obtain rfl : other = set := by simpa [kept] using new.symm
    exact ⟨packet, there, made⟩

/-- What is kept changes nothing of what a packet comes to. -/
theorem packetOutcome_eq (settled : Settled results declared) :
    packetOutcome declared results = packetAfresh declared := by
  funext header
  unfold packetOutcome packetAfresh
  cases there : declared.packets.get? (upper header) with
  | none => rfl
  | some packet =>
    cases kept : results.packets.get? (upper header) with
    | none => simp only [settled.coherent.expandGiven_eq]
    | some set =>
      obtain ⟨other, found, made⟩ := settled.packets _ set kept
      obtain rfl : packet = other := by simpa [there] using found
      rw [← settled.coherent.expandGiven_eq]
      exact (Assembly.assembled_imp (fun name site _ h => Grown.refl.expandGiven_eq_ok
        (by simp) h) made).symm

end Settled

/-! ## Sealed sessions -/

/-- A line is added only to what has not been compiled, and no fragment
comes in while someone else is building it. -/
def Operation.Sealed (workspace : Workspace) : Operation → Prop
  | .addLine owner site =>
    ∀ after, workspace.declared.addLine owner site = .ok after → owner.Open workspace.results
  | .addFragment fragment _ => fragment.busy = false
  | _ => True

instance (workspace : Workspace) (operation : Operation) :
    Decidable (operation.Sealed workspace) :=
  match operation with
  | .addLine owner site =>
    match h : workspace.declared.addLine owner site with
    | .ok after =>
      decidable_of_iff (owner.Open workspace.results) (by simp [Operation.Sealed, h])
    | .error failure => .isTrue (by simp [Operation.Sealed, h])
  | .addFragment fragment _ => inferInstanceAs (Decidable (fragment.busy = false))
  | .registerFragment .. | .registerPacket .. | .addPacket .. | .load _ | .compileFragment ..
  | .compilePacket _ | .compileAll | .record _ => .isTrue trivial

namespace Workspace

variable {workspace : Workspace}

theorem Settled.perform {operation : Operation}
    (settled : Settled workspace.results workspace.declared)
    (isSealed : operation.Sealed workspace) :
    Settled (workspace.perform operation).results (workspace.perform operation).declared := by
  have may : operation.Keeps (Settled workspace.results) workspace.declared := by
    cases operation with
    | addFragment fragment raw => exact fun _ added => (settled.addFragment isSealed added).1
    | addPacket packet raw => exact fun _ added => (settled.addPacket added).1
    | addLine owner site =>
      exact fun after added => settled.addLine (isSealed after added) added
    | _ => trivial
  have kept := perform_keeps (Settled.loadKeeps workspace.results) settled may
  rcases perform_cases workspace operation with same | ⟨same, advance⟩
  · rw [same]
    exact kept
  · rw [same] at kept ⊢
    exact kept.advance advance

theorem settled_of_reached (reached : Reached Operation.Sealed workspace) :
    Settled workspace.results workspace.declared := by
  induction reached with
  | start => exact ⟨⟨fun _ _ there => (nomatch there), .refl⟩, fun _ _ kept => nomatch kept⟩
  | perform _ isSealed ih => exact Settled.perform ih isSealed

/-- In a settled workspace, compiling a fragment comes to its expansion
afresh. -/
theorem compileFragment_settled (settled : Settled workspace.results workspace.declared)
    (name : String) (site : Site) :
    (workspace.compileFragment name site).1
      = expandAfresh workspace.declared.fragments [] name site := by
  rw [← settled.coherent.expandGiven_eq]
  exact (compileFragment_ends workspace.declared name site workspace.results).1

/-- What compiling a packet comes to: the signatures that are kept for it
afterwards, or the failure. -/
def packetSignatures (workspace : Workspace) (header : String) :
    Except Failure (Option SignatureSet) :=
  (workspace.compilePacket header).1.map fun _ =>
    (workspace.compilePacket header).2.results.packets.get? (upper header)

/-- In a settled workspace, compiling a packet comes to its signatures
afresh, and they are kept. -/
theorem compilePacket_settled (settled : Settled workspace.results workspace.declared)
    (header : String) :
    workspace.packetSignatures header = (packetAfresh workspace.declared header).map some := by
  obtain ⟨result, _, kept, _⟩ :=
    compilePacket_ends workspace.declared header workspace.results
  have outcome : (workspace.compilePacket header).1
      = (packetOutcome workspace.declared workspace.results header).map fun _ => () := result
  rw [settled.packetOutcome_eq] at kept outcome
  unfold packetSignatures
  rw [outcome]
  cases afresh : packetAfresh workspace.declared header with
  | error failure => rfl
  | ok set => exact congrArg Except.ok (kept set afresh)

/-- The small session is sealed. -/
theorem sealed_sample : Reached Operation.Sealed sample := by
  have isSealed : Session Operation.Sealed {} sampleSession := by decide +kernel
  exact Reached.start.session isSealed

end Workspace

end PacketLayout
