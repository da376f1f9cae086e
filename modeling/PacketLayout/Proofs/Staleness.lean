/-
PacketLayout.Proofs.Staleness — whether what is kept is still what the
lines come to.

What has been compiled is kept and never looked at again: no operation
changes a kept expansion or a kept signature set. A line can be added to
a declaration at any time, however, also after it has been compiled. So
what is kept is what the lines come to as long as a session is sealed;
from then on it is what they came to at the end of the sealed part.

* `perform_mono`: an operation changes nothing of what is kept.
* `kept_afresh`: in a sealed session everything that is kept is what the
  lines come to, and it stays as it is, whatever is done later.
* `kept_stale`: a line that is added to a compiled declaration is taken,
  and what is kept is then out of date.
-/
import PacketLayout.Proofs.Sealed

namespace PacketLayout

open Text

/-- What is kept, read off the results. -/
structure Results.Includes (later earlier : Results) : Prop where
  expansions : ∀ name expansion, earlier.expansions.get? name = some expansion →
    later.expansions.get? name = some expansion
  packets : ∀ header set, earlier.packets.get? header = some set →
    later.packets.get? header = some set

theorem Results.Includes.refl (results : Results) : results.Includes results :=
  ⟨fun _ _ kept => kept, fun _ _ kept => kept⟩

theorem Results.Includes.trans {first second third : Results} (older : second.Includes first)
    (newer : third.Includes second) : third.Includes first where
  expansions name expansion kept := newer.expansions name expansion (older.expansions _ _ kept)
  packets header set kept := newer.packets header set (older.packets _ _ kept)

namespace Workspace

variable {workspace : Workspace}

/-- An operation changes nothing of what is kept. -/
theorem perform_mono (workspace : Workspace) (operation : Operation) :
    (workspace.perform operation).results.Includes workspace.results := by
  rcases perform_cases workspace operation with same | ⟨_, advance⟩
  · rw [same]
    exact .refl _
  · exact ⟨fun _ _ kept => advance.grown.get?_mono kept, fun _ _ kept => advance.packets_mono kept⟩

theorem foldl_perform_mono (operations : List Operation) (workspace : Workspace) :
    (operations.foldl perform workspace).results.Includes workspace.results := by
  induction operations generalizing workspace with
  | nil => exact .refl _
  | cons operation rest ih => exact (perform_mono workspace operation).trans (ih _)

/-- In a sealed session every kept expansion is the expansion afresh of a
declared fragment, and every kept signature set is what the lines of a
declared packet come to afresh. Whatever is done later, also to the
lines, leaves it as it is. -/
theorem kept_afresh (reached : Reached Operation.Sealed workspace) (later : List Operation) :
    (∀ name expansion, workspace.results.expansions.get? name = some expansion →
      (∀ site, expandAfresh workspace.declared.fragments [] name site = .ok expansion) ∧
      (later.foldl perform workspace).results.expansions.get? name = some expansion) ∧
    (∀ header set, workspace.results.packets.get? header = some set →
      (∃ packet, workspace.declared.packets.get? header = some packet ∧
        Assembly.assembled (expandAfresh workspace.declared.fragments []) packet.body.lines
          = .ok set) ∧
      (later.foldl perform workspace).results.packets.get? header = some set) := by
  have settled := settled_of_reached reached
  have stays := foldl_perform_mono later workspace
  refine ⟨fun name expansion kept => ⟨fun site => ?_, stays.expansions name expansion kept⟩,
    fun header set kept => ⟨?_, stays.packets header set kept⟩⟩
  · obtain ⟨fragment, there⟩ := settled.coherent.grown.declared_of_kept kept
    rw [← settled.coherent.expandGiven_eq]
    simp only [expandGiven_eq, there, kept]
  · obtain ⟨packet, there, made⟩ := settled.packets header set kept
    refine ⟨packet, there, ?_⟩
    rw [← settled.coherent.expandGiven_eq]
    exact Assembly.assembled_imp
      (fun _ _ _ found => Grown.refl.expandGiven_eq_ok (by simp) found) made

/-- A fragment and a packet that refers to it, both compiled. -/
def compiledSession : List Operation :=
  [.registerFragment "F" ⟨1, "Fragment[F]"⟩,
   .addLine (.fragment "F") ⟨2, "X:$1"⟩,
   .registerPacket "P" "01" ⟨4, "Packet[P]:01"⟩,
   .addLine (.packet "01") ⟨5, "+ Fragment[F]"⟩,
   .compileAll]

/-- The workspace in which both are compiled. -/
def compiled : Workspace :=
  compiledSession.foldl perform {}

/-- One more line for each of them. -/
def lateLines : List Operation :=
  [.addLine (.fragment "F") ⟨3, "Y:$2"⟩, .addLine (.packet "01") ⟨6, "Z:$4"⟩]

/-- The workspace after the late lines. -/
def stale : Workspace :=
  lateLines.foldl perform compiled

/-- What is kept at the end of the sealed part is up to date. -/
theorem kept_afresh_compiled :
    Reached Operation.Sealed compiled ∧
    compiled.results.expansions.get? "F"
      = some ⟨[.size 1], [⟨"X", none, none, none⟩]⟩ ∧
    expandAfresh compiled.declared.fragments [] "F" ⟨1, "Fragment[F]"⟩
      = .ok ⟨[.size 1], [⟨"X", none, none, none⟩]⟩ ∧
    stale.results.expansions.get? "F"
      = some ⟨[.size 1], [⟨"X", none, none, none⟩]⟩ := by
  have isSealed : Session Operation.Sealed {} compiledSession := by decide +kernel
  have reached := Reached.start.session isSealed
  have kept : compiled.results.expansions.get? "F"
      = some ⟨[.size 1], [⟨"X", none, none, none⟩]⟩ := by decide +kernel
  obtain ⟨afresh, stays⟩ := (kept_afresh reached lateLines).1 "F" _ kept
  exact ⟨reached, kept, afresh _, stays⟩

/-- The late lines are taken, and then neither the fragment nor the packet
has kept what its lines come to. -/
theorem kept_stale :
    Reached Operation.Any stale ∧ (compiled.addLine (.fragment "F") ⟨3, "Y:$2"⟩).1 = .ok () ∧
    stale.results.expansions.get? "F"
      = some ⟨[.size 1], [⟨"X", none, none, none⟩]⟩ ∧
    expandAfresh stale.declared.fragments [] "F" ⟨1, "Fragment[F]"⟩
      = .ok ⟨[.size 1, .size 2], [⟨"X", none, none, none⟩, ⟨"Y", none, none, none⟩]⟩ ∧
    stale.results.packets.get? "01"
      = some (OrderedMap.empty.insert "$1" ⟨none, [⟨"X", none, none, none⟩]⟩) ∧
    packetAfresh stale.declared "01"
      = .ok (OrderedMap.empty.insert "$1 $2 $4"
          ⟨none, [⟨"X", none, none, none⟩, ⟨"Y", none, none, none⟩, ⟨"Z", none, none, none⟩]⟩) := by
  refine ⟨?_, by decide +kernel, by decide +kernel, by decide +kernel, by decide +kernel,
    by decide +kernel⟩
  rw [stale, compiled, ← List.foldl_append]
  exact Reached.start.session (session_any {} _)

end Workspace

end PacketLayout
