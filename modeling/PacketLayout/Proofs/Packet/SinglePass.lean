/-
PacketLayout.Proofs.Packet.SinglePass — what a compiled packet holds.

The lines of a packet are taken in one after another, under flags that
say where a line counts. What comes out is what the outline reads off
the lines as a whole, with every branch that has a text under a signature
of its own.

* `Workspace.compilePacket_entries`: the signatures of a packet are the
  entries of its outline.
* `Workspace.compilePacket_branches`: no branch is lost or merged, and no
  signature shows a mark.
-/
import PacketLayout.Proofs.Packet.Keys
import PacketLayout.Proofs.Session

namespace PacketLayout

open Outline Text

namespace Assembly

variable {expand : String → Site → Except Failure Expansion} {flat : String → Expansion}
  {done : List BodyLine} {made : Assembly}

/-- The signatures of an outline are distinct, if its lines have been
accepted. -/
theorem Marked.distinct_keys (marked : Marked made) (follows : Follows flat done made)
    {set : SignatureSet} (h : made.finished = .ok set) :
    ((entries flat done).map Prod.fst).Nodup := by
  obtain ⟨_, ⟨unseen, _⟩ | ⟨seen, closable, _⟩⟩ := finished_eq_ok_iff.mp h
  · rw [entries, if_neg (follows.unplaced unseen)]
    simp
  · have distinct := (marked.withClosed closable).distinct_texts seen
    rw [follows.placeholder] at seen
    rw [entries, if_pos seen, ← follows.map_entry]
    exact distinct

/-- None of the signatures shows a mark. -/
theorem Marked.plain_keys (marked : Marked made) (follows : Follows flat done made)
    {set : SignatureSet} (h : made.finished = .ok set) :
    ∀ key ∈ (entries flat done).map Prod.fst, '\x7b' ∉ key.toList := by
  obtain ⟨_, ⟨unseen, _⟩ | ⟨seen, closable, _⟩⟩ := finished_eq_ok_iff.mp h
  · have plain := marked.main
    rw [unseen] at plain
    rw [entries, if_neg (follows.unplaced unseen), ← follows.main]
    intro key mem
    obtain rfl : key = made.main.render := by simpa using mem
    exact Signature.brace_not_mem_render plain
  · have plain := (marked.withClosed closable).brace_not_mem seen
    rw [follows.placeholder] at seen
    rw [entries, if_pos seen, ← follows.map_entry]
    intro key mem
    obtain ⟨branch, inBranches, rfl⟩ : ∃ branch ∈ made.withClosed.branches,
        (made.entry branch).1 = key := by simpa using mem
    exact plain branch inBranches

/-- The signatures that the lines of a packet come to. -/
theorem assembled_eq_ok
    (flattens : ∀ name site found, expand name site = .ok found → found = flat name)
    (plain : ∀ name site found, expand name site = .ok found → found.Plain)
    {lines : List Site} {set : SignatureSet} (h : assembled expand lines = .ok set) :
    set.entries = entries flat (lines.map Site.form) ∧
      (∀ key ∈ set.keys, '\x7b' ∉ key.toList) ∧
      ∀ site ∈ lines, site.form ≠ .unrecognized ∧
        ∃ part, site.form.part expand site = .ok part := by
  obtain ⟨made, run, finished⟩ := assembled_eq_ok_iff.mp h
  have follows := follows_of_foldlM flattens run
  have marked := marked_of_foldlM plain run
  have listed : set.entries = entries flat (lines.map Site.form) := by
    rw [follows.finished finished]
    exact OrderedMap.entries_ofEntries (marked.distinct_keys follows finished)
  refine ⟨listed, ?_, found_of_foldlM run⟩
  rw [OrderedMap.keys, listed]
  exact marked.plain_keys follows finished

end Assembly

/-- The lines of a packet, after each has been read. -/
def Packet.forms (packet : Packet) : List BodyLine :=
  packet.body.lines.map Site.form

namespace Workspace

variable {workspace : Workspace} {allowed : Workspace → Operation → Prop}

theorem compileFragment_result (workspace : Workspace) (name : String) (site : Site) :
    (workspace.compileFragment name site).1
      = expandGiven workspace.results.expansions workspace.declared.fragments [] name site :=
  (compileFragment_ends workspace.declared name site workspace.results).1

/-- What a fragment comes to, if it can be compiled. -/
def flattened (workspace : Workspace) (name : String) : Expansion :=
  match (workspace.compileFragment name ⟨0, name⟩).1 with
  | .ok expansion => expansion
  | .error _ => {}

theorem eq_flattened {name : String} {site : Site} {found : Expansion}
    (h : (workspace.compileFragment name site).1 = .ok found) :
    found = workspace.flattened name := by
  rw [compileFragment_result] at h
  rw [flattened, compileFragment_result, expandGiven_site ⟨0, name⟩ h]

/-- No kept expansion has a mark. -/
theorem plain_expansions (reached : Reached allowed workspace) :
    ∀ name expansion, workspace.results.expansions.get? name = some expansion →
      expansion.Plain :=
  reached.expansions (fun _ _ none => nomatch none) fun _ _ _ plain grown => grown.plain plain

/-- Compiling a packet that has not been compiled succeeds if its plain
steps do, and keeps what they come to. -/
theorem compilePacket_eq_assembled {header : String} {packet : Packet}
    (declared : workspace.declared.packets.get? (upper header) = some packet)
    (fresh : workspace.results.packets.get? (upper header) = none) :
    (workspace.compilePacket header).1
        = (Assembly.assembled (fun name site => (workspace.compileFragment name site).1)
            packet.body.lines).map (fun _ => ()) ∧
      ∀ set, Assembly.assembled (fun name site => (workspace.compileFragment name site).1)
          packet.body.lines = .ok set →
        (workspace.compilePacket header).2.results.packets.get? (upper header) = some set := by
  have same : (fun name site => (workspace.compileFragment name site).1)
      = expandGiven workspace.results.expansions workspace.declared.fragments [] := by
    funext name site
    exact compileFragment_result workspace name site
  obtain ⟨_, ends⟩ := compileFresh_ends declared fresh
  rw [same]
  cases found : Assembly.assembled
      (expandGiven workspace.results.expansions workspace.declared.fragments [])
      packet.body.lines with
  | error failure =>
    rw [found] at ends
    exact ⟨ends.1, fun set none => nomatch none⟩
  | ok set =>
    rw [found] at ends
    refine ⟨ends.1, fun other some => ?_⟩
    cases some
    have kept : (workspace.compilePacket header).2.results.packets
        = workspace.results.packets.insert (upper header) set := ends.2
    rw [kept, OrderedMap.get?_insert, if_pos rfl]

/-- What is kept for a packet that is compiled for the first time,
whatever was done before. -/
theorem compilePacket_set (reached : Reached allowed workspace) {header : String}
    {packet : Packet} (declared : workspace.declared.packets.get? (upper header) = some packet)
    (fresh : workspace.results.packets.get? (upper header) = none)
    (compiled : (workspace.compilePacket header).1 = .ok ()) :
    ∃ set,
      (workspace.compilePacket header).2.results.packets.get? (upper header) = some set ∧
      set.entries = entries workspace.flattened packet.forms ∧
      (∀ key ∈ set.keys, '\x7b' ∉ key.toList) ∧
      ∀ site ∈ packet.body.lines, site.form ≠ .unrecognized ∧
        ∃ part, site.form.part (fun name site => (workspace.compileFragment name site).1) site
          = .ok part := by
  obtain ⟨result, keeps⟩ := compilePacket_eq_assembled declared fresh
  have plain : ∀ name site found, (workspace.compileFragment name site).1 = .ok found →
      found.Plain := by
    intro name site found h
    rw [compileFragment_result] at h
    exact plain_expandGiven (plain_expansions reached) [] name site found h
  cases assembled : Assembly.assembled
      (fun name site => (workspace.compileFragment name site).1) packet.body.lines with
  | error failure =>
    rw [result, assembled] at compiled
    cases compiled
  | ok set =>
    exact ⟨set, keeps set assembled,
      Assembly.assembled_eq_ok (fun _ _ _ h => eq_flattened h) plain assembled⟩

/-- A packet that is compiled for the first time, whatever was done
before: its lines are all of a known form, what they refer to is found,
and its signatures are the entries of its outline. -/
theorem compilePacket_entries (reached : Reached Operation.Any workspace) {header : String}
    {packet : Packet} (declared : workspace.declared.packets.get? (upper header) = some packet)
    (fresh : workspace.results.packets.get? (upper header) = none)
    (compiled : (workspace.compilePacket header).1 = .ok ()) :
    (∀ site ∈ packet.body.lines, site.form ≠ .unrecognized ∧
      ∀ name, site.form = .control (.fragmentRef name) →
        (workspace.compileFragment name site).1 = .ok (workspace.flattened name)) ∧
    ∃ set,
      (workspace.compilePacket header).2.results.packets.get? (upper header) = some set ∧
      set.entries = entries workspace.flattened packet.forms := by
  obtain ⟨set, kept, listed, _, lines⟩ := compilePacket_set reached declared fresh compiled
  refine ⟨fun site mem => ⟨(lines site mem).1, fun name form => ?_⟩, set, kept, listed⟩
  obtain ⟨part, found⟩ := (lines site mem).2
  rw [form] at found
  have expanded : (workspace.compileFragment name site).1 = .ok part := found
  rw [expanded, eq_flattened expanded]

/-- The sample packet: the path goes to the main body behind the time, and
its field to those before the placeholder. -/
theorem compilePacket_entries_sample :
    sample.declared.packets.get? (upper "6f") = some samplePacket ∧
    sample.results.packets.get? (upper "6f") = none ∧
    (sample.compilePacket "6f").1 = .ok () ∧
    (entries sample.flattened samplePacket.forms).map Prod.fst
      = ["$4 01 $1 $1 [REPS] $2 [REPE]", "$4 02 $1 [REPS] $2 [REPE]"] ∧
    ∃ set, (sample.compilePacket "6f").2.results.packets.get? (upper "6f") = some set ∧
      set.entries = entries sample.flattened samplePacket.forms := by
  have declared : sample.declared.packets.get? (upper "6f") = some samplePacket := by
    decide +kernel
  have fresh : sample.results.packets.get? (upper "6f") = none := by decide +kernel
  have compiled : (sample.compilePacket "6f").1 = .ok () := by decide +kernel
  refine ⟨declared, fresh, compiled, by decide +kernel, ?_⟩
  exact (compilePacket_entries reached_sample declared fresh compiled).2

/-- No branch of a compiled packet is lost or merged with another, and no
signature shows a mark. -/
theorem compilePacket_branches (reached : Reached Operation.Any workspace) {header : String}
    {packet : Packet} (declared : workspace.declared.packets.get? (upper header) = some packet)
    (fresh : workspace.results.packets.get? (upper header) = none)
    (compiled : (workspace.compilePacket header).1 = .ok ()) :
    ∃ set,
      (workspace.compilePacket header).2.results.packets.get? (upper header) = some set ∧
      (hasPlaceholder packet.forms = true →
        set.size = (filledBranches packet.forms).length ∧
        set.keys = (filledBranches packet.forms).map
          (fun branch => (signature workspace.flattened packet.forms branch).render) ∧
        set.values.map SignatureEntry.description = (filledBranches packet.forms).map
          fun branch => some branch.header.description) ∧
      ∀ key ∈ set.keys, ¬ Token.subCategory.render.toList <:+: key.toList := by
  obtain ⟨set, kept, listed, plain, _⟩ := compilePacket_set reached declared fresh compiled
  refine ⟨set, kept, fun placed => ?_, fun key mem shown => ?_⟩
  · rw [entries, if_pos placed] at listed
    refine ⟨?_, ?_, ?_⟩
    · simp [OrderedMap.size, listed]
    · simp [OrderedMap.keys, listed, entry, Function.comp_def]
    · simp [OrderedMap.values, listed, entry, Function.comp_def]
  · exact plain key mem (shown.subset (by decide))

/-- The sample packet has two branches and two signatures. -/
theorem compilePacket_branches_sample :
    sample.declared.packets.get? (upper "6f") = some samplePacket ∧
    sample.results.packets.get? (upper "6f") = none ∧
    (sample.compilePacket "6f").1 = .ok () ∧
    hasPlaceholder samplePacket.forms = true ∧
    ∃ set, (sample.compilePacket "6f").2.results.packets.get? (upper "6f") = some set ∧
      set.size = 2 ∧ ∀ key ∈ set.keys, ¬ Token.subCategory.render.toList <:+: key.toList := by
  have declared : sample.declared.packets.get? (upper "6f") = some samplePacket := by
    decide +kernel
  have fresh : sample.results.packets.get? (upper "6f") = none := by decide +kernel
  have compiled : (sample.compilePacket "6f").1 = .ok () := by decide +kernel
  have placed : hasPlaceholder samplePacket.forms = true := by decide +kernel
  have filled : (filledBranches samplePacket.forms).length = 2 := by decide +kernel
  obtain ⟨set, kept, branches, plain⟩ :=
    compilePacket_branches reached_sample declared fresh compiled
  exact ⟨declared, fresh, compiled, placed, set, kept, (branches placed).1.trans filled, plain⟩

end Workspace

end PacketLayout
