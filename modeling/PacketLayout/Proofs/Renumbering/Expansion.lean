/-
PacketLayout.Proofs.Renumbering.Expansion — fragments under other line
numbers.

Compiling keeps results that have no line number in them. So where the
declarations are the same up to a renumbering, the states of both sides
are equal all the way, and so are the expansions that are found; what is
reported on the way differs in the numbers alone.

* `readAt_same`: a line is read in the same way.
* `resolve_same`: a fragment is found, kept and built in the same way.
-/
import PacketLayout.Proofs.Expansion.Keeping
import PacketLayout.Proofs.Renumbering.Data

namespace PacketLayout

namespace Renumbering

variable (numbers : Renumbering)

/-- Two jobs on equal states that come to the same, up to line
numbers. -/
abbrev SameJob {σ α β : Type} (answers : α → β → Prop) (first : Job σ α) (second : Job σ β) :
    Prop :=
  Job.Alike ⟨Eq, numbers.SameFailure, numbers.SameEntry⟩ answers first second

/-- Whatever is referred to from the same site is resolved in the same
way. -/
def SameResolution {σ : Type} (resolve resolve' : String → Site → Job σ Expansion) : Prop :=
  ∀ name site other, numbers.SameSite site other →
    numbers.SameJob Eq (resolve name site) (resolve' name other)

variable {numbers} {σ : Type} {site other : Site}

/-! ## Lines of a fragment -/

theorem readAt_same (h : numbers.SameSite site other) :
    numbers.SameJob Eq (BodyLine.readAt site : Job σ BodyLine) (BodyLine.readAt other) := by
  unfold BodyLine.readAt
  rw [← h.raw]
  cases BodyLine.read site.raw.toList with
  | error cause => exact Job.alike_fail (h.blame cause)
  | ok line =>
    refine (Job.alike_report ?_).bind fun _ _ _ => Job.alike_pure rfl
    rw [List.forall₂_map_left_iff, List.forall₂_map_right_iff, List.forall₂_same]
    exact fun remark _ => sameEntry_warning h.line remark.warning _

theorem expansion_addLine_same {resolve resolve' : String → Site → Job σ Expansion}
    (resolves : numbers.SameResolution resolve resolve') (made : Expansion)
    (h : numbers.SameSite site other) :
    numbers.SameJob Eq (made.addLine resolve site) (made.addLine resolve' other) := by
  unfold Expansion.addLine
  refine (readAt_same h).bind ?_
  rintro line _ rfl
  cases line with
  | field line => exact Job.alike_pure rfl
  | branch header => exact Job.alike_fail (h.blame _)
  | unrecognized => exact Job.alike_fail (h.blame _)
  | control line =>
    cases line with
    | fragmentRef name =>
      refine (resolves name site other h).bind ?_
      rintro nested _ rfl
      exact Job.alike_pure rfl
    | repeatStart => exact Job.alike_pure rfl
    | repeatEnd => exact Job.alike_pure rfl
    | placeholder => exact Job.alike_fail (h.blame _)
    | pack => exact Job.alike_fail (h.blame _)

/-- A fragment is found, kept and built in the same way on both sides. -/
theorem resolve_same {fragments others : OrderedMap Fragment}
    (h : fragments.Alike numbers.SameFragment others) (path : List String) :
    numbers.SameResolution (resolve fragments path) (resolve others path) := by
  induction path using offPath_induction fragments.keys with
  | step path ih =>
    intro name site other here
    rw [resolve_eq, resolve_eq]
    rcases optionRel_cases (h.get? name) with
      ⟨absent, absent'⟩ | ⟨fragment, fragment', declared, declared', same⟩
    · simp only [absent, absent']
      exact Job.alike_fail (here.blame _)
    · simp only [declared, declared']
      refine Job.alike_get.bind ?_
      rintro known _ rfl
      cases known.get? name with
      | some expansion => exact Job.alike_pure rfl
      | none =>
        simp only [← same.busy]
        split
        · exact Job.alike_fail (here.blame _)
        · rename_i again
          -- the lines are built along the longer path, on both sides
          have inner := ih name (OrderedMap.mem_keys_of_get? declared) fun mem => again (.inl mem)
          have lines : numbers.SameJob Eq
              (fragment.body.lines.foldlM
                (Expansion.addLine (resolve fragments (path ++ [name]))) {})
              (fragment'.body.lines.foldlM
                (Expansion.addLine (resolve others (path ++ [name]))) {}) := by
            refine Job.alike_foldlM (fun made made' line line' equal sites => ?_) same.body rfl
            subst equal
            exact expansion_addLine_same inner made sites
          refine (Job.alike_report (.cons (sameEntry_info same.line _) .nil)).bind fun _ _ _ => ?_
          refine lines.bind ?_
          rintro expansion _ rfl
          refine (Job.alike_report (.cons (SameEntry.trace _) .nil)).bind fun _ _ _ => ?_
          refine Job.alike_get.bind ?_
          rintro found _ rfl
          exact (Job.alike_set rfl).bind fun _ _ _ => Job.alike_pure rfl

end Renumbering

end PacketLayout
