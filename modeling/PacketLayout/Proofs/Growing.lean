/-
PacketLayout.Proofs.Growing — declarations only grow.

A declaration that has been made stays, in its place among the others,
and its body keeps all its lines; lines may come in between them. This
holds of every operation, whether it succeeds or fails, and so of any two
workspaces of a session.

* `Body.sublist_add?`: a line that is added moves no other line.
* `Workspace.perform_continues`, `Workspace.foldl_perform_continues`: no
  operation takes anything back.
* `Workspace.named_of_reached`: every declaration stands under its own
  name.
-/
import PacketLayout.Proofs.OrderedMapEntries
import PacketLayout.Proofs.Session

namespace PacketLayout

namespace Body

theorem sublist_place? {site : Site} {lines placed : List Site}
    (h : place? site lines = some placed) : lines.Sublist placed := by
  induction lines generalizing placed with
  | nil => exact List.nil_sublist _
  | cons first rest ih =>
    unfold place? at h
    split at h
    · cases h
      exact List.sublist_cons_self site _
    · split at h
      · cases h
      · obtain ⟨later, found, rfl⟩ := Option.map_eq_some_iff.mp h
        exact (ih found).cons_cons first

/-- A line that is added moves no other line. -/
theorem sublist_add? {body longer : Body} {site : Site} (h : body.add? site = some longer) :
    body.lines.Sublist longer.lines := by
  have placed : place? site body.lines = some longer.lines := by
    rw [← lines_add?, h]
    rfl
  exact sublist_place? placed

end Body

/-- The fragment with the same header and all its lines, and perhaps
more of them. -/
def Fragment.Lengthens (fragment longer : Fragment) : Prop :=
  ∃ body, longer = { fragment with body } ∧ fragment.body.lines.Sublist body.lines

/-- The packet with the same header and all its lines, and perhaps more
of them. -/
def Packet.Lengthens (packet longer : Packet) : Prop :=
  ∃ body, longer = { packet with body } ∧ packet.body.lines.Sublist body.lines

theorem Fragment.Lengthens.refl (fragment : Fragment) : fragment.Lengthens fragment :=
  ⟨fragment.body, rfl, .refl _⟩

theorem Fragment.Lengthens.trans {first second third : Fragment}
    (older : first.Lengthens second) (newer : second.Lengthens third) :
    first.Lengthens third := by
  obtain ⟨_, rfl, more⟩ := older
  obtain ⟨body, rfl, evenMore⟩ := newer
  exact ⟨body, rfl, more.trans evenMore⟩

theorem Packet.Lengthens.refl (packet : Packet) : packet.Lengthens packet :=
  ⟨packet.body, rfl, .refl _⟩

theorem Packet.Lengthens.trans {first second third : Packet}
    (older : first.Lengthens second) (newer : second.Lengthens third) :
    first.Lengthens third := by
  obtain ⟨_, rfl, more⟩ := older
  obtain ⟨body, rfl, evenMore⟩ := newer
  exact ⟨body, rfl, more.trans evenMore⟩

namespace Declarations

/-- The declarations `before` come first in `after`, in the same order,
each with its header and all its lines. -/
structure Continues (after before : Declarations) : Prop where
  fragments : OrderedMap.Continues Fragment.Lengthens before.fragments after.fragments
  packets : OrderedMap.Continues Packet.Lengthens before.packets after.packets

/-- All that has been declared `before` is still there, with all its
lines. -/
structure Extends (after before : Declarations) : Prop where
  fragments : ∀ name fragment, before.fragments.get? name = some fragment →
    ∃ longer, after.fragments.get? name = some longer ∧
      fragment.body.lines.Sublist longer.body.lines
  packets : ∀ header packet, before.packets.get? header = some packet →
    ∃ longer, after.packets.get? header = some longer ∧
      packet.body.lines.Sublist longer.body.lines

namespace Continues

variable {start declared after : Declarations}

theorem refl (declared : Declarations) : declared.Continues declared where
  fragments := .refl Fragment.Lengthens.refl _
  packets := .refl Packet.Lengthens.refl _

theorem trans (older : declared.Continues start) (newer : after.Continues declared) :
    after.Continues start where
  fragments := older.fragments.trans Fragment.Lengthens.trans newer.fragments
  packets := older.packets.trans Packet.Lengthens.trans newer.packets

theorem addFragment {fragment : Fragment} {raw : String}
    (added : declared.addFragment fragment raw = .ok after) : after.Continues declared := by
  obtain ⟨free, rfl⟩ := addFragment_ok added
  exact ⟨.insert_new Fragment.Lengthens.refl free fragment, (refl declared).packets⟩

theorem addPacket {packet : Packet} {raw : String}
    (added : declared.addPacket packet raw = .ok after) : after.Continues declared := by
  obtain ⟨free, rfl⟩ := addPacket_ok added
  exact ⟨(refl declared).fragments, .insert_new Packet.Lengthens.refl free packet⟩

theorem addLine {owner : Owner} {site : Site} (added : declared.addLine owner site = .ok after) :
    after.Continues declared := by
  cases owner with
  | fragment name =>
    obtain ⟨fragment, longer, there, grown, rfl⟩ := addLine_fragment_ok added
    have next : fragment.Lengthens { fragment with body := longer } :=
      ⟨longer, rfl, Body.sublist_add? grown⟩
    exact ⟨.insert_old Fragment.Lengthens.refl there next, (refl declared).packets⟩
  | packet header =>
    obtain ⟨packet, longer, there, grown, rfl⟩ := addLine_packet_ok added
    have next : packet.Lengthens { packet with body := longer } :=
      ⟨longer, rfl, Body.sublist_add? grown⟩
    exact ⟨(refl declared).fragments, .insert_old Packet.Lengthens.refl there next⟩

theorem loadKeeps (start : Declarations) :
    LoadKeeps (fun declared => declared.Continues start) fun _ => True where
  addFragment _ _ _ _ grown added := ⟨grown.trans (addFragment added), trivial⟩
  addPacket _ _ _ _ _ grown added := ⟨grown.trans (addPacket added), trivial⟩
  addLine _ _ _ _ grown _ added := grown.trans (addLine added)

theorem toExtends (grown : after.Continues declared) : after.Extends declared where
  fragments name fragment there := by
    obtain ⟨_, here, body, rfl, more⟩ := grown.fragments.get? name fragment there
    exact ⟨_, here, more⟩
  packets header packet there := by
    obtain ⟨_, here, body, rfl, more⟩ := grown.packets.get? header packet there
    exact ⟨_, here, more⟩

end Continues

/-- Every declaration stands under the name or header that it bears. -/
structure Named (declared : Declarations) : Prop where
  fragments : ∀ entry ∈ declared.fragments.entries, entry.1 = entry.2.name
  packets : ∀ entry ∈ declared.packets.entries, entry.1 = entry.2.header

namespace Named

variable {declared after : Declarations}

theorem addFragment (named : declared.Named) {fragment : Fragment} {raw : String}
    (added : declared.addFragment fragment raw = .ok after) : after.Named := by
  obtain ⟨_, rfl⟩ := addFragment_ok added
  refine ⟨fun entry mem => ?_, named.packets⟩
  rcases OrderedMap.mem_entries_insert mem with rfl | old
  · rfl
  · exact named.fragments entry old

theorem addPacket (named : declared.Named) {packet : Packet} {raw : String}
    (added : declared.addPacket packet raw = .ok after) : after.Named := by
  obtain ⟨_, rfl⟩ := addPacket_ok added
  refine ⟨named.fragments, fun entry mem => ?_⟩
  rcases OrderedMap.mem_entries_insert mem with rfl | old
  · rfl
  · exact named.packets entry old

theorem addLine (named : declared.Named) {owner : Owner} {site : Site}
    (added : declared.addLine owner site = .ok after) : after.Named := by
  cases owner with
  | fragment name =>
    obtain ⟨fragment, longer, there, _, rfl⟩ := addLine_fragment_ok added
    refine ⟨fun entry mem => ?_, named.packets⟩
    rcases OrderedMap.mem_entries_insert mem with rfl | old
    · exact named.fragments (name, fragment) (OrderedMap.mem_entries_of_get? there)
    · exact named.fragments entry old
  | packet header =>
    obtain ⟨packet, longer, there, _, rfl⟩ := addLine_packet_ok added
    refine ⟨named.fragments, fun entry mem => ?_⟩
    rcases OrderedMap.mem_entries_insert mem with rfl | old
    · exact named.packets (header, packet) (OrderedMap.mem_entries_of_get? there)
    · exact named.packets entry old

theorem loadKeeps : LoadKeeps Named fun _ => True where
  addFragment _ _ _ _ named added := ⟨named.addFragment added, trivial⟩
  addPacket _ _ _ _ _ named added := ⟨named.addPacket added, trivial⟩
  addLine _ _ _ _ named _ added := named.addLine added

end Named

end Declarations

namespace Workspace

/-- An operation adds declarations behind the others, and lines to those
that are there. -/
theorem perform_continues (workspace : Workspace) (operation : Operation) :
    (workspace.perform operation).declared.Continues workspace.declared := by
  refine perform_keeps (Declarations.Continues.loadKeeps workspace.declared) (.refl _) ?_
  cases operation with
  | addFragment fragment raw => exact fun _ added => .addFragment added
  | addPacket packet raw => exact fun _ added => .addPacket added
  | addLine owner site => exact fun _ added => .addLine added
  | _ => trivial

theorem foldl_perform_continues (operations : List Operation) (workspace : Workspace) :
    (operations.foldl perform workspace).declared.Continues workspace.declared := by
  induction operations generalizing workspace with
  | nil => exact .refl _
  | cons operation rest ih => exact (perform_continues workspace operation).trans (ih _)

/-- No operation takes anything back. -/
theorem perform_extends (workspace : Workspace) (operation : Operation) :
    (workspace.perform operation).declared.Extends workspace.declared :=
  (perform_continues workspace operation).toExtends

/-- Every declaration stands under its own name. -/
theorem named_of_reached {allowed : Workspace → Operation → Prop} {workspace : Workspace}
    (reached : Reached allowed workspace) : workspace.declared.Named := by
  induction reached with
  | start => exact ⟨fun _ mem => (nomatch mem), fun _ mem => (nomatch mem)⟩
  | @perform workspace operation _ _ named =>
    refine perform_keeps Declarations.Named.loadKeeps named ?_
    cases operation with
    | addFragment fragment raw => exact fun _ added => named.addFragment added
    | addPacket packet raw => exact fun _ added => named.addPacket added
    | addLine owner site => exact fun _ added => named.addLine added
    | _ => trivial

end Workspace

end PacketLayout
