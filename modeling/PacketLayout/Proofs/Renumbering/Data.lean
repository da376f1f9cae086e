/-
PacketLayout.Proofs.Renumbering.Data — the same data under other line
numbers.

Two sources can have the same code on different lines, where one has
comments or blank lines that the other has not. Line numbers are data:
they order the lines of a body, they are remembered in declarations, in
packets and in branches, and they stand in failures and journal entries.

A `Renumbering` pairs line numbers with line numbers, in the same order.
Two data are the same under it if they differ in paired numbers alone;
there is one relation for each kind of data that has a number in it, and
all other data are simply equal.

* `place?_same`: a line gets the same place in the same body.
* `tablePackets_same`: the same declarations give the same table.
-/
import PacketLayout.Proofs.JobRules
import PacketLayout.Proofs.OrderedMapEntries
import PacketLayout.Assembly
import PacketLayout.SignatureTable

namespace PacketLayout

/-- Line numbers that belong together, in the same order on both
sides. -/
structure Renumbering where
  pairs : Nat → Nat → Prop
  ordered : ∀ {number number' later later' : Nat}, pairs number number' → pairs later later' →
    (number < later ↔ number' < later')

/-- Two optional values that belong together: both are there, or
neither. -/
theorem optionRel_cases {α β : Type} {belong : α → β → Prop} {value : Option α}
    {other : Option β} (h : Option.Rel belong value other) :
    (value = none ∧ other = none) ∨
      ∃ here there, value = some here ∧ other = some there ∧ belong here there := by
  cases h with
  | none => exact .inl ⟨rfl, rfl⟩
  | some same => exact .inr ⟨_, _, rfl, rfl, same⟩

theorem optionRel_isSome {α β : Type} {belong : α → β → Prop} {value : Option α}
    {other : Option β} (h : Option.Rel belong value other) : value.isSome = other.isSome := by
  cases h with
  | none => rfl
  | some _ => rfl

namespace Renumbering

variable (numbers : Renumbering)

theorem eq_iff {number number' other other' : Nat} (h : numbers.pairs number number')
    (h' : numbers.pairs other other') : number = other ↔ number' = other' := by
  have below := numbers.ordered h h'
  have above := numbers.ordered h' h
  omega

/-! ## Sites, failures and entries -/

structure SameSite (site other : Site) : Prop where
  line : numbers.pairs site.line other.line
  raw : site.raw = other.raw

structure SameFailure (failure other : Failure) : Prop where
  cause : failure.cause = other.cause
  site : numbers.SameSite failure.site other.site

structure SameDiagnostic (diagnostic other : Diagnostic) : Prop where
  line : numbers.pairs diagnostic.line other.line
  notice : diagnostic.notice = other.notice
  raw : diagnostic.raw = other.raw

inductive SameEntry : Entry → Entry → Prop
  | diagnostic {diagnostic other : Diagnostic} (h : numbers.SameDiagnostic diagnostic other) :
    SameEntry (.diagnostic diagnostic) (.diagnostic other)
  | trace (what : Trace) : SameEntry (.trace what) (.trace what)

section Entries

variable {numbers} {site other : Site} {line line' : Nat}

theorem SameSite.blame (h : numbers.SameSite site other) (cause : Cause) :
    numbers.SameFailure (cause.atSite site) (cause.atSite other) :=
  ⟨rfl, h⟩

theorem sameEntry_info (h : numbers.pairs line line') (what : Progress) :
    numbers.SameEntry (.info line what) (.info line' what) :=
  .diagnostic ⟨h, rfl, rfl⟩

theorem sameEntry_warning (h : numbers.pairs line line') (what : Warning)
    (raw : Option String) :
    numbers.SameEntry (.warning line what raw) (.warning line' what raw) :=
  .diagnostic ⟨h, rfl, rfl⟩

theorem SameFailure.recorded {failure other : Failure} (h : numbers.SameFailure failure other) :
    numbers.SameEntry (.fatal failure) (.fatal other) :=
  .diagnostic ⟨h.site.line, congrArg Notice.fatal h.cause, congrArg some h.site.raw⟩

theorem diagnostics_same {journal others : Journal}
    (h : List.Forall₂ numbers.SameEntry journal others) :
    List.Forall₂ numbers.SameDiagnostic journal.diagnostics others.diagnostics := by
  refine List.rel_filterMap (fun entry other same => ?_) h
  cases same with
  | diagnostic same => exact .some same
  | trace what => exact .none

end Entries

/-! ## Bodies -/

def SameBody (body other : Body) : Prop :=
  List.Forall₂ numbers.SameSite body.lines other.lines

section Bodies

variable {numbers} {site other : Site}

theorem place?_same (here : numbers.SameSite site other) {lines others : List Site}
    (h : List.Forall₂ numbers.SameSite lines others) :
    Option.Rel (List.Forall₂ numbers.SameSite) (Body.place? site lines)
      (Body.place? other others) := by
  induction h with
  | nil => exact .some (.cons here .nil)
  | cons first rest ih =>
    unfold Body.place?
    simp only [numbers.ordered here.line first.line, numbers.eq_iff here.line first.line]
    split
    · exact .some (.cons here (.cons first rest))
    · split
      · exact .none
      · rcases optionRel_cases ih with ⟨one, two⟩ | ⟨placed, placed', one, two, later⟩
        · rw [one, two]
          exact .none
        · rw [one, two]
          exact .some (.cons first later)

theorem add?_same (here : numbers.SameSite site other) {body body' : Body}
    (h : numbers.SameBody body body') :
    Option.Rel numbers.SameBody (body.add? site) (body'.add? other) := by
  have placed := place?_same here h
  rw [← Body.lines_add?, ← Body.lines_add?] at placed
  cases one : body.add? site with
  | none =>
    cases two : body'.add? other with
    | none => exact .none
    | some longer =>
      rw [one, two] at placed
      cases placed
  | some longer =>
    cases two : body'.add? other with
    | none =>
      rw [one, two] at placed
      cases placed
    | some longer' =>
      rw [one, two] at placed
      cases placed with
      | some same => exact .some same

end Bodies

/-! ## Declarations -/

structure SameFragment (fragment other : Fragment) : Prop where
  name : fragment.name = other.name
  line : numbers.pairs fragment.line other.line
  body : numbers.SameBody fragment.body other.body
  busy : fragment.busy = other.busy

structure SamePacket (packet other : Packet) : Prop where
  description : packet.description = other.description
  header : packet.header = other.header
  line : numbers.pairs packet.line other.line
  body : numbers.SameBody packet.body other.body

structure SameDeclarations (declared others : Declarations) : Prop where
  fragments : declared.fragments.Alike numbers.SameFragment others.fragments
  packets : declared.packets.Alike numbers.SamePacket others.packets

/-- A table takes nothing from a declaration that has a line number. -/
theorem tablePackets_same {declared others : Declarations}
    (h : numbers.SameDeclarations declared others) (results : Results)
    (timestamp timestamp' : Nat) :
    (SignatureTable.assemble declared results timestamp).packets
      = (SignatureTable.assemble others results timestamp').packets := by
  unfold SignatureTable.assemble
  refine List.rel_foldl (fun made made' same entry entry' alike => ?_) rfl h.packets
  obtain ⟨header, packet⟩ := entry
  obtain ⟨header', packet'⟩ := entry'
  obtain ⟨rfl, packets⟩ : header = header' ∧ numbers.SamePacket packet packet' := alike
  subst same
  simp only [packets.header, packets.description]

end Renumbering

end PacketLayout
