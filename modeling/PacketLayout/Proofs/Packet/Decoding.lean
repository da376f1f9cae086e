/-
PacketLayout.Proofs.Packet.Decoding — what a key says of its signature.

The keys of a packet are all that is left of its units. They are enough:
whatever operation compiled the packet, and whatever was done before, each
key is cut into the words of its units again, and every word is read back.
Two keys are the same, be they of one packet or of two from different
sessions, exactly when their units are the same in normal form.

* `compiled_keys_decode`: the keys of a compiled packet, next to its
  expanded units.
-/
import PacketLayout.Proofs.Packet.Compiled

namespace PacketLayout

open Signature Workspace

variable {workspace : Workspace} {operation : Operation} {header : String} {set : SignatureSet}

/-- Some operation of some session compiles a packet that has the key, and
these are the expanded units in the place of the key. -/
def Emitted (key : String) (units : Signature) : Prop :=
  ∃ workspace operation header, ∃ compiled : CompiledPacket workspace operation header,
    (key, units) ∈ compiled.set.keys.zip compiled.made.expanded

/-- A key is the text of its units, which can be read off it. -/
theorem Emitted.written {key : String} {units : Signature} (emitted : Emitted key units) :
    key = units.render ∧ units.Readable := by
  obtain ⟨workspace, operation, header, compiled, place⟩ := emitted
  have readable := compiled.readable units (List.of_mem_zip place).2
  rw [compiled.keys, List.zip_map_left] at place
  obtain ⟨⟨first, second⟩, paired, same⟩ := List.mem_map.mp place
  obtain rfl : first = second := by
    obtain ⟨place, _, here⟩ := List.mem_iff_getElem.mp paired
    rw [List.getElem_zip] at here
    cases here
    rfl
  cases same
  exact ⟨rfl, readable⟩

/-- Each key of a compiled packet has one word for each unit that has a
text, decodes to its units in normal form, and is the key of no units
with another normal form. -/
theorem compiled_keys_decode (reached : Reached Operation.Any workspace)
    (fresh : workspace.results.packets.get? header = none)
    (kept : (workspace.perform operation).results.packets.get? header = some set) :
    ∃ compiled : CompiledPacket workspace operation header, compiled.set = set ∧
      List.Forall₂ (fun key units =>
          List.Forall₂ WritesAs (unitWords key) (shown units) ∧
          decode? key = some (normalForm units) ∧
          ∀ other more, Emitted other more → (key = other ↔ normalForm units = normalForm more))
        set.keys compiled.made.expanded := by
  obtain ⟨compiled, rfl⟩ := exists_compiledPacket reached fresh kept
  refine ⟨compiled, rfl, ?_⟩
  rw [compiled.keys, List.forall₂_map_left_iff]
  refine List.forall₂_same.mpr fun units mem => ?_
  have readable := compiled.readable units mem
  refine ⟨forall₂_writesAs readable, decode?_render readable, fun other more emitted => ?_⟩
  obtain ⟨rfl, alike⟩ := emitted.written
  exact render_eq_iff readable alike

/-- The key of the packet with a fragment: the unit without a text has left
no trace in it. -/
theorem compiled_keys_decode_trail :
    Reached Operation.Any trail ∧
    trail.results.packets.get? "70" = none ∧
    ∃ set units, (trail.perform .compileAll).results.packets.get? "70" = some set ∧
      set.keys = ["[REPS] $2 [REPE] 01 $1 [REPS] $1 [REPE]"] ∧
      List.Forall₂ WritesAs (unitWords "[REPS] $2 [REPE] 01 $1 [REPS] $1 [REPE]") (shown units) ∧
      normalForm units = [.repeatStart, .size 2, .repeatEnd, .hex "01", .size 1, .repeatStart,
        .size 1, .repeatEnd] := by
  have reached : Reached Operation.Any trail :=
    reached_sample.session (session_any sample trailSession)
  have fresh : trail.results.packets.get? "70" = none := by decide +kernel
  have shown : ((trail.perform .compileAll).results.packets.get? "70").map OrderedMap.keys
      = some ["[REPS] $2 [REPE] 01 $1 [REPS] $1 [REPE]"] := by decide +kernel
  have read : decode? "[REPS] $2 [REPE] 01 $1 [REPS] $1 [REPE]"
      = some [.repeatStart, .size 2, .repeatEnd, .hex "01", .size 1, .repeatStart, .size 1,
          .repeatEnd] := by decide +kernel
  obtain ⟨set, kept, keys⟩ := Option.map_eq_some_iff.mp shown
  obtain ⟨compiled, rfl, decodes⟩ := compiled_keys_decode reached fresh kept
  rw [keys] at decodes
  obtain ⟨units, _, ⟨words, decoded, _⟩, _, _⟩ := List.forall₂_cons_left_iff.mp decodes
  rw [read] at decoded
  exact ⟨reached, fresh, compiled.set, units, kept, keys, words, (Option.some.inj decoded).symm⟩

end PacketLayout
