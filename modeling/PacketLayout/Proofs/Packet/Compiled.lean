/-
PacketLayout.Proofs.Packet.Compiled — a packet as it is compiled.

`CompiledPacket` holds together what there is to know of a packet when an
operation of some session compiles it: its declaration, what is collected
of its lines, the signatures that are kept, and the units that the
fragments give, line by line. What is said of the keys of a packet is said
of such a compilation, whichever operation brought it about.

* `Workspace.exists_compiledPacket`: whenever signatures are kept for a
  packet for the first time, there is one.
* `CompiledPacket.keys`: the keys are the texts of the expanded units.
* `CompiledPacket.readable`: the expanded units are such as lines write.
-/
import PacketLayout.Proofs.KeyReading
import PacketLayout.Proofs.Packet.Alignment

namespace PacketLayout

open Outline Text Workspace

/-! ## Units of lines -/

/-- What holds of the units that a line gives by itself holds of those that
are traced to it. -/
theorem Site.all_traced {holds : Token → Prop} {site : Site} (own : site.form.own.All holds)
    (lead : ∀ header, site.form = .branch header → header.lead.All holds) {embedded : Bool}
    {unit : TracedUnit} (mem : unit ∈ site.traced embedded) : holds unit.token := by
  cases form : site.form with
  | branch header =>
    simp only [traced, form] at mem
    obtain ⟨bytes, told, rfl⟩ := List.mem_map.mp mem
    refine lead header form (.hex bytes) ?_
    rw [BranchHeader.lead, Option.mem_toList.mp told]
    exact List.mem_singleton_self _
  | field line =>
    simp only [traced, form, List.mem_singleton] at mem
    rw [form] at own
    subst mem
    exact own line.token (List.mem_singleton_self _)
  | unrecognized =>
    simp only [traced, form] at mem
    cases mem
  | control line =>
    rw [form] at own
    cases line with
    | repeatStart =>
      simp only [traced, form, List.mem_singleton] at mem
      subst mem
      exact own .repeatStart (List.mem_singleton_self _)
    | repeatEnd =>
      simp only [traced, form, List.mem_singleton] at mem
      subst mem
      exact own .repeatEnd (List.mem_singleton_self _)
    | _ =>
      simp only [traced, form] at mem
      cases mem

/-- The units that lines produce can be read off their texts. -/
theorem FromLines.readable {units : List TracedUnit} (sound : FromLines units) :
    Signature.Readable (units.map TracedUnit.token) := by
  intro token mem
  obtain ⟨unit, inside, rfl⟩ := List.mem_map.mp mem
  obtain ⟨site, embedded, produced⟩ := sound unit inside
  exact ⟨Site.all_traced site.legible_own (fun _ => Site.legible_lead) produced,
    Site.traced_plain produced⟩

/-- The units that lines produce are no marks for the branches. -/
theorem FromLines.plain {units : List TracedUnit} (sound : FromLines units) :
    (Expansion.ofTrace units).Plain := by
  intro token mem
  obtain ⟨unit, inside, rfl⟩ := List.mem_map.mp mem
  obtain ⟨site, embedded, produced⟩ := sound unit inside
  exact Site.all_traced site.plain_own site.plain_lead produced

/-- The units of every entry come from lines. -/
theorem fromLines_entryTraces {trace : String → List TracedUnit} {lines : List Site}
    (sound : ∀ name, FromLines (trace name)) :
    ∀ units ∈ entryTraces trace lines, FromLines units := by
  intro units mem
  have main := fromLines_mainTrace sound lines
  unfold entryTraces at mem
  split at mem
  · obtain ⟨branch, inside, rfl⟩ := List.mem_map.mp mem
    exact main.fillGap (fromLines_branchTraces (List.mem_filter.mp inside).1)
  · rw [List.mem_singleton.mp mem]
    exact main.fillGap fun _ none => nomatch none

/-- The texts of the signatures are the keys of the entries. -/
theorem Outline.keys_entries (flat : String → Expansion) (lines : List BodyLine) :
    (entries flat lines).map Prod.fst = (signatures flat lines).map Signature.render := by
  unfold entries signatures
  split
  · rw [List.map_map, List.map_map]
    rfl
  · rfl

/-! ## Compiling a packet -/

/-- A packet as `operation` compiles it for the first time, on a workspace
that a session has led to. -/
structure CompiledPacket (workspace : Workspace) (operation : Operation) (header : String) where
  packet : Packet
  /-- What is collected of the lines. -/
  made : Assembly
  set : SignatureSet
  /-- The units that the fragments give. -/
  trace : String → List TracedUnit
  reached : Reached Operation.Any workspace
  fresh : workspace.results.packets.get? header = none
  kept : (workspace.perform operation).results.packets.get? header = some set
  declared : workspace.declared.packets.get? header = some packet
  collected : packet.body.lines.foldlM (Assembly.step (remembered workspace.declared.fragments
    (workspace.perform operation).results.expansions)) {} = .ok made
  finished : made.finished = .ok set
  sound : ∀ name, FromLines (trace name)
  traced : ∀ name expansion,
    (workspace.perform operation).results.expansions.get? name = some expansion →
      TracesFragment workspace.declared.fragments name (trace name) ∧
      expansion = .ofTrace (trace name)

variable {workspace : Workspace} {operation : Operation} {header : String}

/-- Whenever signatures are kept for a packet for the first time, they come
from its lines. -/
theorem Workspace.exists_compiledPacket (reached : Reached Operation.Any workspace)
    (fresh : workspace.results.packets.get? header = none) {set : SignatureSet}
    (kept : (workspace.perform operation).results.packets.get? header = some set) :
    ∃ compiled : CompiledPacket workspace operation header, compiled.set = set := by
  obtain ⟨packet, still, declared, assembled⟩ := assembled_of_compiled fresh kept
  obtain ⟨made, collected, finished⟩ := Assembly.assembled_eq_ok_iff.mp assembled
  have after : Reached Operation.Any (workspace.perform operation) := reached.perform trivial
  have traced := traced_of_reached after
  rw [still] at traced
  obtain ⟨trace, sound, traced⟩ := traced.exists_trace
  exact ⟨⟨packet, made, set, trace, reached, fresh, kept, declared, collected, finished, sound,
    traced⟩, rfl⟩

namespace CompiledPacket

variable (compiled : CompiledPacket workspace operation header)

/-- The lines of the packet. -/
def lines : List Site :=
  compiled.packet.body.lines

/-- The units of the entries, each with the line that produced it. -/
def units : List (List TracedUnit) :=
  entryTraces compiled.trace compiled.lines

/-- A fragment that the lines refer to gives the units that are traced. -/
theorem flattens (name : String) (site : Site) (found : Expansion)
    (h : remembered workspace.declared.fragments
      (workspace.perform operation).results.expansions name site = .ok found) :
    found = .ofTrace (compiled.trace name) :=
  (compiled.traced name found (remembered_eq_ok_iff.mp h).2).2

include compiled in
theorem plain (name : String) (site : Site) (found : Expansion)
    (h : remembered workspace.declared.fragments
      (workspace.perform operation).results.expansions name site = .ok found) : found.Plain := by
  rw [compiled.flattens name site found h]
  exact (compiled.sound name).plain

theorem assembled :
    Assembly.assembled (remembered workspace.declared.fragments
      (workspace.perform operation).results.expansions) compiled.lines = .ok compiled.set :=
  Assembly.assembled_eq_ok_iff.mpr ⟨compiled.made, compiled.collected, compiled.finished⟩

/-- The lines make a packet. -/
theorem wellFormed : WellFormed compiled.packet.forms := by
  obtain ⟨_, _, lines⟩ := Assembly.assembled_eq_ok compiled.flattens compiled.plain
    compiled.assembled
  exact (Assembly.exists_assembled_iff compiled.flattens (fun site mem => (lines site mem).1)
    fun site mem => (lines site mem).2).mp ⟨compiled.set, compiled.assembled⟩

/-- The expanded units are those that the lines give. -/
theorem expanded : compiled.made.expanded
    = compiled.units.map (List.map TracedUnit.token) := by
  have follows := Assembly.follows_of_foldlM compiled.flattens compiled.collected
  exact follows.expanded.trans (entryTraces_tokens compiled.sound compiled.lines).symm

/-- The keys are the texts of the expanded units. -/
theorem keys : compiled.set.keys = compiled.made.expanded.map Signature.render := by
  have follows := Assembly.follows_of_foldlM compiled.flattens compiled.collected
  obtain ⟨listed, _⟩ := Assembly.assembled_eq_ok compiled.flattens compiled.plain
    compiled.assembled
  calc compiled.set.keys
      = (Outline.entries (fun name => .ofTrace (compiled.trace name))
          compiled.packet.forms).map Prod.fst := congrArg (List.map Prod.fst) listed
    _ = compiled.made.expanded.map Signature.render := by
        rw [keys_entries, follows.expanded]
        rfl

/-- The expanded units can be read off their texts. -/
theorem readable : ∀ signature ∈ compiled.made.expanded, signature.Readable := by
  intro signature mem
  rw [compiled.expanded] at mem
  obtain ⟨units, inside, rfl⟩ := List.mem_map.mp mem
  exact (fromLines_entryTraces compiled.sound units inside).readable

end CompiledPacket

end PacketLayout
