/-
PacketLayout.Proofs.Renumbering.Loading — loading under other line
numbers.

Where two sources have the same code, a line of the one is loaded into
the declarations of the one as its fellow is into those of the other. The
one failure that quotes a line number in its message is that of a number
which is taken; it is left out as long as single lines are looked at, and
excluded where a whole source is, since no source leads to it.

* `loadLine_same`: one line.
* `load_same`: a whole source.
-/
import PacketLayout.Loading
import PacketLayout.Proofs.Blame
import PacketLayout.Proofs.Renumbering.Data

namespace PacketLayout

open Text

namespace Renumbering

variable (numbers : Renumbering)

/-- Failures that are the same, if a source alone can lead to them. -/
def SameSourceFailure (failure other : Failure) : Prop :=
  failure.cause.isOfSource = true → numbers.SameFailure failure other

/-- Two jobs on declarations that come to the same, up to line
numbers. -/
abbrev SameLoading {α : Type} (first second : Job Declarations α) : Prop :=
  Job.Alike ⟨numbers.SameDeclarations, numbers.SameSourceFailure, numbers.SameEntry⟩ Eq
    first second

/-- Changes of the declarations that come to the same. -/
abbrev SameChange : Except Failure Declarations → Except Failure Declarations → Prop :=
  Job.ResultsAlike numbers.SameSourceFailure numbers.SameDeclarations

variable {numbers} {declared others : Declarations} {site other : Site}

theorem SameSite.blameSource (h : numbers.SameSite site other) (cause : Cause) :
    numbers.SameSourceFailure (cause.atSite site) (cause.atSite other) :=
  fun _ => h.blame cause

/-! ## Single declarations -/

theorem addFragment_same (h : numbers.SameDeclarations declared others)
    {fragment fragment' : Fragment} (same : numbers.SameFragment fragment fragment')
    (raw : String) :
    numbers.SameChange (declared.addFragment fragment raw)
      (others.addFragment fragment' raw) := by
  unfold Declarations.addFragment OrderedMap.contains
  rw [← same.name, ← optionRel_isSome (h.fragments.get? fragment.name)]
  split
  · have here : numbers.SameSite ⟨fragment.line, raw⟩ ⟨fragment'.line, raw⟩ := ⟨same.line, rfl⟩
    exact .error (here.blameSource _)
  · exact .ok { h with fragments := h.fragments.insert fragment.name same }

theorem addPacket_same (h : numbers.SameDeclarations declared others)
    {packet packet' : Packet} (same : numbers.SamePacket packet packet') (raw : String) :
    numbers.SameChange (declared.addPacket packet raw) (others.addPacket packet' raw) := by
  unfold Declarations.addPacket OrderedMap.contains
  rw [← same.header, ← optionRel_isSome (h.packets.get? packet.header)]
  split
  · have here : numbers.SameSite ⟨packet.line, raw⟩ ⟨packet'.line, raw⟩ := ⟨same.line, rfl⟩
    exact .error (here.blameSource _)
  · exact .ok { h with packets := h.packets.insert packet.header same }

/-- A line that is refused for its number is refused on both sides, and
no more is said of it. -/
theorem addToBody_same (here : numbers.SameSite site other) {body body' : Body}
    (h : numbers.SameBody body body') :
    Job.ResultsAlike numbers.SameSourceFailure numbers.SameBody
      (Declarations.addToBody body site) (Declarations.addToBody body' other) := by
  unfold Declarations.addToBody
  rcases optionRel_cases (add?_same here h) with ⟨one, two⟩ | ⟨longer, longer', one, two, same⟩
  · simp only [one, two]
    exact .error fun source => nomatch source
  · simp only [one, two]
    exact .ok same

theorem addLine_same (h : numbers.SameDeclarations declared others) (owner : Owner)
    (here : numbers.SameSite site other) :
    numbers.SameChange (declared.addLine owner site) (others.addLine owner other) := by
  unfold Declarations.addLine
  cases owner with
  | fragment name =>
    rcases optionRel_cases (h.fragments.get? name) with
      ⟨one, two⟩ | ⟨fragment, fragment', one, two, same⟩
    · simp only [one, two]
      exact .error (here.blameSource _)
    · simp only [one, two]
      refine (addToBody_same here same.body).map fun body body' longer => ?_
      exact { h with fragments := h.fragments.insert name { same with body := longer } }
  | packet header =>
    rcases optionRel_cases (h.packets.get? header) with
      ⟨one, two⟩ | ⟨packet, packet', one, two, same⟩
    · simp only [one, two]
      exact .error (here.blameSource _)
    · simp only [one, two]
      refine (addToBody_same here same.body).map fun body body' longer => ?_
      exact { h with packets := h.packets.insert header { same with body := longer } }

theorem changeDeclarations_same {change change' : Declarations → Except Failure Declarations}
    (same : ∀ declared others, numbers.SameDeclarations declared others →
      numbers.SameChange (change declared) (change' others)) :
    numbers.SameLoading (changeDeclarations change) (changeDeclarations change') := by
  unfold changeDeclarations
  refine Job.alike_get.bind fun declared others h => ?_
  refine (Job.alike_ofExcept (same declared others h)).bind fun changed changed' h => ?_
  exact Job.alike_set h

/-! ## Lines -/

theorem declareFragment_same (name : String) (here : numbers.SameSite site other) :
    numbers.SameLoading (declareFragment name site) (declareFragment name other) := by
  unfold declareFragment
  rw [← here.raw]
  have fragment : numbers.SameFragment { name, line := site.line } { name, line := other.line } :=
    ⟨rfl, here.line, .nil, rfl⟩
  refine (changeDeclarations_same fun _ _ h => addFragment_same h fragment site.raw).bind
    fun _ _ _ => ?_
  refine (Job.alike_report (.cons (sameEntry_info here.line _) .nil)).bind fun _ _ _ => ?_
  exact Job.alike_pure rfl

theorem declarePacket_same (description header : String) (here : numbers.SameSite site other) :
    numbers.SameLoading (declarePacket description header site)
      (declarePacket description header other) := by
  unfold declarePacket
  rw [← here.raw]
  have packet : numbers.SamePacket { description, header := upper header, line := site.line }
      { description, header := upper header, line := other.line } :=
    ⟨rfl, rfl, here.line, .nil⟩
  refine (changeDeclarations_same fun _ _ h => addPacket_same h packet site.raw).bind
    fun _ _ _ => ?_
  refine (Job.alike_report (.cons (sameEntry_info here.line _) .nil)).bind fun _ _ _ => ?_
  exact Job.alike_pure rfl

theorem loadCode_same (position : Position) (here : numbers.SameSite site other) :
    numbers.SameLoading (position.loadCode site) (position.loadCode other) := by
  unfold Position.loadCode
  rw [← here.raw]
  dsimp only
  split
  · cases readFragmentHeader? site.raw.toList with
    | none => exact Job.alike_fail (here.blameSource _)
    | some name =>
      refine (declareFragment_same name here).bind ?_
      rintro owner _ rfl
      exact Job.alike_pure rfl
  · split
    · cases readPacketHeader? site.raw.toList with
      | none => exact Job.alike_fail (here.blameSource _)
      | some packet =>
        refine (declarePacket_same _ _ here).bind ?_
        rintro owner _ rfl
        exact Job.alike_pure rfl
    · cases position.owner with
      | none => exact Job.alike_fail (here.blameSource _)
      | some owner =>
        refine (changeDeclarations_same fun _ _ h => addLine_same h owner here).bind
          fun _ _ _ => ?_
        exact Job.alike_pure rfl

theorem loadLine_same (position : Position) (here : numbers.SameSite site other) :
    numbers.SameLoading (position.loadLine site) (position.loadLine other) := by
  unfold Position.loadLine
  rw [← here.raw]
  split
  · exact Job.alike_pure rfl
  · split
    · exact Job.alike_pure rfl
    · split
      · exact loadCode_same position here
      · exact Job.alike_fail (here.blameSource _)

/-! ## A whole source -/

/-- What stops the loading of a source is something that a source alone
can lead to. -/
theorem loadLines_failure {source : String} {failure : Failure}
    (failed : (loadLines (codeLines source) {}).result = .error failure) :
    failure.cause.isOfSource = true := by
  have ends := Layout.load_ends source
  unfold load at ends
  rw [Job.ends_recordingFailure] at ends
  unfold Job.Ends at ends
  rw [failed] at ends
  obtain ⟨done, site, rest, position, cause, _, _, fault, rfl⟩ := ends
  rcases Layout.fault?_cases fault with h | h | h | ⟨_, h⟩ | ⟨_, h⟩ | ⟨h, _⟩ <;>
    exact congrArg Cause.isOfSource h

/-- Sources with the same code are loaded in the same way. -/
theorem load_same {source source' : String}
    (same : List.Forall₂ numbers.SameSite (codeLines source) (codeLines source')) :
    Job.OutcomesAlike ⟨numbers.SameDeclarations, numbers.SameFailure, numbers.SameEntry⟩ Eq
      (load source {}) (load source' {}) := by
  have lines : numbers.SameLoading (loadLines (codeLines source))
      (loadLines (codeLines source')) := by
    refine (Job.alike_foldlM (fun position position' site other equal here => ?_) same rfl).bind
      fun _ _ _ => Job.alike_pure rfl
    subst equal
    exact loadLine_same position here
  have loaded := (lines {} {} ⟨.nil, .nil⟩).sharpen fun failure other failed alike =>
    alike (loadLines_failure failed)
  exact loaded.recordingFailure fun _ _ failed => failed.recorded

end Renumbering

end PacketLayout
