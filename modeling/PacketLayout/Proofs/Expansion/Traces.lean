/-
PacketLayout.Proofs.Expansion.Traces — which line produced which unit.

A unit of a signature is produced by one line, and that line may record a
field for it. In a fragment the mark of a repeated group has no field; in
a packet it has one. A traced unit carries its line and what the line
recorded, so a list of traced units is a signature and its fields at once.

`Traces` says which units the lines of a fragment give, through all the
fragments they refer to. A fragment may have gained lines since it was
compiled; what is kept of it was made of some of its lines.

* `Expansion.ofTrace`: the signature and the fields of traced units.
* `Traces.of_ofLines`: what the lines of a fragment come to has a trace,
  if what they refer to has one.
* `Workspace.traced_of_reached`: every kept expansion has a trace, in
  every workspace of a session.
-/
import PacketLayout.Proofs.Expansion.References
import PacketLayout.Proofs.Growing
import PacketLayout.Proofs.Packet.Repeats

namespace PacketLayout

/-! ## Traced units -/

/-- A unit, the line that produced it, and the field that the line
recorded for it. -/
structure TracedUnit where
  site : Site
  /-- The line stands in a fragment. -/
  embedded : Bool
  token : Token
  field : Option Field
  deriving DecidableEq

/-- The unit is the mark of a repeated group in a fragment. -/
def TracedUnit.isEmbeddedMark (unit : TracedUnit) : Bool :=
  unit.embedded && unit.token.repeatMark?.isSome

/-- What a line produces by itself, and what it records. -/
def Site.traced (embedded : Bool) (site : Site) : List TracedUnit :=
  match site.form with
  | .field line => [⟨site, embedded, line.token, some line.field⟩]
  | .branch header => header.discriminator.toList.map fun bytes =>
      ⟨site, embedded, .hex bytes, some .discriminator⟩
  | .control .repeatStart =>
    [⟨site, embedded, .repeatStart, if embedded then none else some .placeholder⟩]
  | .control .repeatEnd =>
    [⟨site, embedded, .repeatEnd, if embedded then none else some .placeholder⟩]
  | _ => []

namespace Expansion

/-- The units of a trace, and the fields that were recorded for them. -/
def ofTrace (units : List TracedUnit) : Expansion :=
  ⟨units.map TracedUnit.token, units.filterMap TracedUnit.field⟩

@[simp] theorem ofTrace_nil : ofTrace [] = {} := rfl

theorem ofTrace_append (first second : List TracedUnit) :
    ofTrace (first ++ second) = (ofTrace first).append (ofTrace second) := by
  simp [ofTrace, append]

/-- A line of a fragment that is no reference comes to what it produces
by itself. -/
theorem ofLine_eq_traced {expand : String → Site → Except Failure Expansion} {site : Site}
    {piece : Expansion} (own : site.form.reference? = none)
    (h : ofLine expand site = .ok piece) : piece = .ofTrace (site.traced true) := by
  unfold Site.form at own
  unfold ofLine at h
  unfold Site.traced Site.form
  cases read : BodyLine.read site.raw.toList with
  | error cause =>
    rw [read] at h
    cases h
  | ok line =>
    rw [read] at h own
    cases line with
    | field line =>
      cases h
      rfl
    | branch header => cases h
    | unrecognized => cases h
    | control line =>
      cases line with
      | fragmentRef name => cases own
      | repeatStart =>
        cases h
        rfl
      | repeatEnd =>
        cases h
        rfl
      | placeholder => cases h
      | pack => cases h

end Expansion

/-! ## Units of fragments -/

/-- The lines of a fragment give these units, one line after another: a
reference gives the units of the fragment it names, as far as it had
lines. -/
inductive Traces (fragments : OrderedMap Fragment) : List Site → List TracedUnit → Prop
  | nil : Traces fragments [] []
  | line {site : Site} {rest : List Site} {units : List TracedUnit}
      (own : site.form.reference? = none) (later : Traces fragments rest units) :
      Traces fragments (site :: rest) (site.traced true ++ units)
  | reference {site : Site} {rest lines : List Site} {name : String} {fragment : Fragment}
      {nested units : List TracedUnit} (ref : site.form.reference? = some name)
      (declared : fragments.get? name = some fragment)
      (had : lines.Sublist fragment.body.lines) (inner : Traces fragments lines nested)
      (later : Traces fragments rest units) :
      Traces fragments (site :: rest) (nested ++ units)

/-- The units of the fragment `name`, as far as it had lines. -/
def TracesFragment (fragments : OrderedMap Fragment) (name : String) (units : List TracedUnit) :
    Prop :=
  ∃ fragment lines, fragments.get? name = some fragment ∧
    lines.Sublist fragment.body.lines ∧ Traces fragments lines units

namespace Traces

variable {fragments : OrderedMap Fragment} {lines : List Site} {units : List TracedUnit}

/-- Every unit comes from a line. -/
theorem mem (traces : Traces fragments lines units) {unit : TracedUnit} (mem : unit ∈ units) :
    ∃ site : Site, unit ∈ site.traced true := by
  induction traces with
  | nil => cases mem
  | @line site _ _ _ _ ih =>
    rcases List.mem_append.mp mem with here | there
    · exact ⟨site, here⟩
    · exact ih there
  | reference _ _ _ _ _ inner later =>
    rcases List.mem_append.mp mem with here | there
    · exact inner here
    · exact later there

/-- Traces stay when the declarations grow. -/
theorem mono {before after : Declarations} (grown : after.Extends before)
    (traces : Traces before.fragments lines units) : Traces after.fragments lines units := by
  induction traces with
  | nil => exact .nil
  | line own _ ih => exact .line own ih
  | reference ref declared had _ _ inner later =>
    obtain ⟨longer, there, more⟩ := grown.fragments _ _ declared
    exact .reference ref there (had.trans more) inner later

/-- What the lines of a fragment come to has a trace, if everything that
they refer to has one. -/
theorem of_ofLines {expand : String → Site → Except Failure Expansion}
    (found : ∀ name site expansion, expand name site = .ok expansion →
      ∃ units, TracesFragment fragments name units ∧ expansion = .ofTrace units)
    {whole : Expansion} (h : Expansion.ofLines expand lines = .ok whole) :
    ∃ units, Traces fragments lines units ∧ whole = .ofTrace units := by
  induction lines generalizing whole with
  | nil =>
    cases h
    exact ⟨[], .nil, rfl⟩
  | cons site rest ih =>
    obtain ⟨piece, more, first, later, rfl⟩ := Expansion.ofLines_cons_eq_ok h
    obtain ⟨units, traces, rfl⟩ := ih later
    cases ref : site.form.reference? with
    | none =>
      refine ⟨_, .line ref traces, ?_⟩
      rw [Expansion.ofLine_eq_traced ref first, Expansion.ofTrace_append]
    | some name =>
      have referred : expand name site = .ok piece := by
        rcases Expansion.ofLine_cases site with ⟨other, same, _, all⟩ | ⟨none, _⟩ | ⟨none, _⟩
        · obtain rfl : name = other := by simpa [ref] using same
          rw [← all expand]
          exact first
        · rw [ref] at none
          cases none
        · rw [ref] at none
          cases none
      obtain ⟨nested, ⟨fragment, lines, declared, had, inner⟩, rfl⟩ :=
        found name site piece referred
      exact ⟨nested ++ units, .reference ref declared had inner traces,
        (Expansion.ofTrace_append nested units).symm⟩

end Traces

/-! ## Kept expansions -/

/-- Every expansion has a trace. -/
def Expansions.Traced (fragments : OrderedMap Fragment) (known : Expansions) : Prop :=
  ∀ name expansion, known.get? name = some expansion →
    ∃ units, TracesFragment fragments name units ∧ expansion = .ofTrace units

theorem Expansions.Traced.mono {before after : Declarations} {known : Expansions}
    (grown : after.Extends before) (traced : Expansions.Traced before.fragments known) :
    Expansions.Traced after.fragments known := by
  intro name expansion kept
  obtain ⟨units, ⟨fragment, lines, declared, had, traces⟩, same⟩ := traced name expansion kept
  obtain ⟨longer, there, more⟩ := grown.fragments name fragment declared
  exact ⟨units, ⟨longer, lines, there, had.trans more, traces.mono grown⟩, same⟩

theorem Grown.traced {fragments : OrderedMap Fragment} {given known : Expansions}
    (grown : Grown fragments given known) (traced : Expansions.Traced fragments given) :
    Expansions.Traced fragments known := by
  induction grown with
  | refl => exact traced
  | @keep known newest fragment whole _ _ declared _ made ih =>
    intro name expansion kept
    rw [OrderedMap.get?_insert] at kept
    split at kept
    · rename_i same
      cases kept
      subst same
      obtain ⟨units, traces, same⟩ := Traces.of_ofLines
        (fun name _ expansion found => ih name expansion (remembered_eq_ok_iff.mp found).2) made
      exact ⟨units, ⟨fragment, _, declared, .refl _, traces⟩, same⟩
    · exact ih name expansion kept

/-- Every kept expansion has a trace, whatever was done before. -/
theorem Workspace.traced_of_reached {workspace : Workspace}
    {allowed : Workspace → Operation → Prop} (reached : Reached allowed workspace) :
    Expansions.Traced workspace.declared.fragments workspace.results.expansions := by
  induction reached with
  | start => exact fun _ _ none => nomatch none
  | @perform workspace operation _ _ ih =>
    rcases perform_cases workspace operation with same | ⟨same, advance⟩
    · rw [same]
      exact ih.mono (perform_extends workspace operation)
    · rw [same]
      exact advance.grown.traced ih

end PacketLayout
