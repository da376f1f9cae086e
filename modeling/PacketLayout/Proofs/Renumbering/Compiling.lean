/-
PacketLayout.Proofs.Renumbering.Compiling — compiling under other line
numbers.

Everything that is declared is compiled in the same way, if the
declarations are the same up to a renumbering. A packet that is not
declared would be blamed on no line at all; but the declared headers are
gone through, and each of them is there.

* `assemble_same`: the lines of a packet.
* `compileAll_same`: everything that is declared.
-/
import PacketLayout.Compilation
import PacketLayout.Proofs.Renumbering.Assembly

namespace PacketLayout

open Text

namespace Renumbering

variable {numbers : Renumbering} {declared others : Declarations}

/-! ## Packets and everything -/

theorem assemble_same {fragments others : OrderedMap Fragment}
    (h : fragments.Alike numbers.SameFragment others) {body body' : Body}
    (same : numbers.SameBody body body') :
    numbers.SameJob Eq (assemble fragments body) (assemble others body') := by
  have resolves := resolve_same h []
  have lines : numbers.SameJob numbers.SameAssembly
      (body.lines.foldlM (Assembly.addLine (resolve fragments [])) {})
      (body'.lines.foldlM (Assembly.addLine (resolve others [])) {}) :=
    Job.alike_foldlM (fun _ _ _ _ made here => made.addLine resolves here) same .start
  exact lines.bind fun _ _ made => made.finish

theorem onExpansions_same {α : Type} {job job' : Job Expansions α}
    (h : numbers.SameJob Eq job job') :
    numbers.SameJob Eq (onExpansions job) (onExpansions job') := by
  rintro results _ rfl
  obtain ⟨result, state, entries⟩ := h results.expansions _ rfl
  exact ⟨result, congrArg (fun expansions => { results with expansions }) state, entries⟩

theorem compileDeclared_same (h : numbers.SameDeclarations declared others)
    {fragment fragment' : Fragment} (same : numbers.SameFragment fragment fragment') :
    numbers.SameJob Eq (compileDeclared declared fragment) (compileDeclared others fragment') := by
  unfold compileDeclared compileFragment
  rw [← same.name]
  have resolved := resolve_same h.fragments [] fragment.name ⟨fragment.line, fragment.name⟩
    ⟨fragment'.line, fragment.name⟩ ⟨same.line, rfl⟩
  exact (onExpansions_same resolved).bind fun _ _ _ => Job.alike_pure rfl

theorem recordPacket_same (header : String) (set : SignatureSet) :
    numbers.SameJob Eq (recordPacket header set) (recordPacket header set) := by
  unfold recordPacket
  refine (Job.alike_report ?_).bind fun _ _ _ => Job.alike_get.bind ?_
  · rw [List.forall₂_map_left_iff, List.forall₂_map_right_iff, List.forall₂_same]
    exact fun key _ => SameEntry.trace _
  · rintro results _ rfl
    exact Job.alike_set rfl

/-- A declared packet is compiled in the same way on both sides. -/
theorem compilePacket_same (h : numbers.SameDeclarations declared others) {header : String}
    (mem : upper header ∈ declared.packets.keys) :
    numbers.SameJob Eq (compilePacket declared header) (compilePacket others header) := by
  unfold compilePacket
  rcases optionRel_cases (h.packets.get? (upper header)) with
    ⟨absent, _⟩ | ⟨packet, packet', found, found', same⟩
  · exact absurd mem (OrderedMap.get?_eq_none_iff.mp absent)
  · simp only [found, found', ← same.description]
    refine Job.alike_get.bind ?_
    rintro results _ rfl
    split
    · exact Job.alike_pure rfl
    · refine (Job.alike_report (.cons (sameEntry_info same.line _) .nil)).bind fun _ _ _ => ?_
      refine (onExpansions_same (assemble_same h.fragments same.body)).bind ?_
      rintro set _ rfl
      exact recordPacket_same _ set

/-- Everything is compiled in the same way, if the declared headers are
in capitals, as they are when they have been loaded. -/
theorem compileAll_same (h : numbers.SameDeclarations declared others)
    (capital : ∀ header ∈ declared.packets.keys, upper header = header) :
    numbers.SameJob Eq (compileAll declared) (compileAll others) := by
  have fragments : numbers.SameJob Eq (declared.fragments.values.forM (compileDeclared declared))
      (others.fragments.values.forM (compileDeclared others)) :=
    Job.alike_forM (fun _ _ same => compileDeclared_same h same) h.fragments.values
  have packets : numbers.SameJob Eq (declared.packets.keys.forM (compilePacket declared))
      (others.packets.keys.forM (compilePacket others)) := by
    have headers : List.Forall₂ (fun header header' => header = header' ∧
        header ∈ declared.packets.keys) declared.packets.keys declared.packets.keys :=
      List.forall₂_same.mpr fun _ mem => ⟨rfl, mem⟩
    rw [← h.packets.keys]
    refine Job.alike_forM (fun header header' same => ?_) headers
    obtain ⟨rfl, mem⟩ := same
    exact compilePacket_same h ((capital header mem).symm ▸ mem)
  intro results results' start
  exact ((fragments.bind fun _ _ _ => packets) results results' start).recordingFailure
    fun _ _ failed => failed.recorded

end Renumbering

end PacketLayout
