/-
PacketLayout.Proofs.Packet.Alignment — fields line up with units.

The units and the fields of a packet are collected apart, and both are
cut and put together again at the end. A decoder goes through the two
lists side by side. Here each entry is laid against the units that its
lines give, with the line that produced each of them: apart from the
marks of repeated groups that come from fragments, there are as many
units as fields. And if no fragment is referred to behind the
placeholder, each field is the one that the line of the unit recorded.

* `mainTrace_of_placed`: the fields of the main body on either side of
  the gap, line by line.
* `entryTraces_aligned`: the entries of the outline.
* `Workspace.compiled_aligned`: the entries of a packet, when it is
  compiled by any operation in any session.
-/
import PacketLayout.Proofs.Packet.Acceptance
import PacketLayout.Proofs.Packet.SinglePass
import PacketLayout.Proofs.Packet.Tracing

namespace PacketLayout

open Outline Text

/-! ## One more line of the main body -/

variable {trace : String → List TracedUnit} {lines : List Site} {site : Site}

theorem mainTrace_concat (lines : List Site) (site : Site) :
    mainTrace trace (lines ++ [site])
      = mainTrace trace lines
        ++ if (lines.map Site.form).any BodyLine.isHeader || site.form.isHeader then
            (site.splicedTrace trace).map some
          else mainLineTrace trace site := by
  induction lines with
  | nil => cases header : site.form.isHeader <;> simp [mainTrace, header]
  | cons first rest ih =>
    cases header : first.form.isHeader with
    | true => simp [mainTrace, header]
    | false =>
      have skip : ∀ more, mainTrace trace (first :: more)
          = mainLineTrace trace first ++ mainTrace trace more := by
        intro more
        simp [mainTrace, header]
      rw [List.cons_append, skip, skip, ih, List.append_assoc]
      simp [header]

theorem mainLineTrace_of_line (line : site.form.isPlaceholder = false) :
    mainLineTrace trace site = (site.traced false ++ site.splicedTrace trace).map some := by
  rw [mainLineTrace, if_neg (by simp [line])]

/-- The fields that a line brings in from a fragment. -/
theorem fields_spliced (site : Site) :
    (site.form.spliced fun name => .ofTrace (trace name)).fields
      = (Expansion.ofTrace (site.splicedTrace trace)).fields := by
  rw [site.ofTrace_splicedTrace trace]

theorem fields_append (first second : List TracedUnit) :
    (Expansion.ofTrace (first ++ second)).fields
      = (Expansion.ofTrace first).fields ++ (Expansion.ofTrace second).fields := by
  rw [Expansion.ofTrace_append]
  rfl

/-! ## The main body and its fields -/

/-- Without a placeholder there is no gap, and all fields stand before
the branches. -/
theorem mainTrace_of_unplaced (trace : String → List TracedUnit)
    (unseen : hasPlaceholder (lines.map Site.form) = false) :
    ∃ front, mainTrace trace lines = front.map some ∧
      (Expansion.ofTrace front).fields
        = before (fun name => .ofTrace (trace name)) (lines.map Site.form) ∧
      after (lines.map Site.form) = [] := by
  induction lines using List.reverseRecOn with
  | nil => exact ⟨[], rfl, rfl, rfl⟩
  | append_singleton rest site ih =>
    rw [List.map_append, List.map_singleton, hasPlaceholder_concat, Bool.or_eq_false_iff] at unseen
    obtain ⟨unseen, line⟩ := unseen
    obtain ⟨front, main, fields, none⟩ := ih unseen
    rw [List.map_append, List.map_singleton, mainTrace_concat, before_concat, after_concat, main,
      ← fields, none, unseen, line, fields_spliced, mainLineTrace_of_line line]
    cases headed : (rest.map Site.form).any BodyLine.isHeader || site.form.isHeader with
    | true =>
      refine ⟨front ++ site.splicedTrace trace, by simp, ?_, by simp⟩
      rw [fields_append]
      cases header : (rest.map Site.form).any BodyLine.isHeader <;> simp_all
    | false =>
      rw [Bool.or_eq_false_iff] at headed
      refine ⟨front ++ (site.traced false ++ site.splicedTrace trace), by simp, ?_, by simp⟩
      rw [fields_append, fields_append, Site.ofTrace_traced_of_body headed.2]
      simp [headed]

/-- No fragment is referred to behind the placeholder. -/
def FragmentsFirst (lines : List Site) : Prop :=
  lines.Pairwise fun earlier later =>
    earlier.form.isPlaceholder = true → later.form.reference? = none

instance (lines : List Site) : Decidable (FragmentsFirst lines) :=
  inferInstanceAs (Decidable (lines.Pairwise fun earlier later =>
    earlier.form.isPlaceholder = true → later.form.reference? = none))

theorem splicedTrace_of_no_reference (trace : String → List TracedUnit)
    (none : site.form.reference? = none) :
    site.splicedTrace trace = [] := by
  simp [Site.splicedTrace, none]

/-- What the placeholder leaves open: it has no header before it. -/
theorem mainTrace_of_placeholder (trace : String → List TracedUnit)
    (unseen : hasPlaceholder (lines.map Site.form) = false)
    (headless : (lines.map Site.form).any BodyLine.isHeader = false)
    (here : site.form.isPlaceholder = true) :
    ∃ front, mainTrace trace (lines ++ [site]) = front.map some ++ [none] ∧
      (Expansion.ofTrace front).fields
        = before (fun name => .ofTrace (trace name)) ((lines ++ [site]).map Site.form) ∧
      after ((lines ++ [site]).map Site.form) = [] := by
  obtain ⟨front, main, fields, none⟩ := mainTrace_of_unplaced trace unseen
  have noHeader : site.form.isHeader = false := by
    cases form : site.form with
    | branch header =>
      rw [form] at here
      cases here
    | _ => rfl
  have noFragment : site.form.spliced (fun name => .ofTrace (trace name)) = {} := by
    cases form : site.form with
    | control line =>
      cases line with
      | fragmentRef name =>
        rw [form] at here
        cases here
      | _ => rfl
    | _ => rfl
  refine ⟨front, ?_, ?_, ?_⟩
  · simp [mainTrace_concat, headless, noHeader, mainLineTrace, here, main]
  · simp [before_concat, here, noFragment, fields]
  · simp [after_concat, unseen, none]

/-- A line behind the placeholder adds units behind the gap: those of the
line itself, whose fields stand after the branches, and those of a
fragment, whose fields stand before them. -/
theorem mainTrace_behind (trace : String → List TracedUnit)
    (seen : hasPlaceholder (lines.map Site.form) = true)
    (line : site.form.isPlaceholder = false) :
    ∃ added own, mainTrace trace (lines ++ [site]) = mainTrace trace lines ++ added.map some ∧
      (Expansion.ofTrace added).fields
        = own ++ (Expansion.ofTrace (site.splicedTrace trace)).fields ∧
      before (fun name => .ofTrace (trace name)) ((lines ++ [site]).map Site.form)
        = before (fun name => .ofTrace (trace name)) (lines.map Site.form)
          ++ (Expansion.ofTrace (site.splicedTrace trace)).fields ∧
      after ((lines ++ [site]).map Site.form) = after (lines.map Site.form) ++ own := by
  rw [List.map_append, List.map_singleton, mainTrace_concat, before_concat, after_concat, seen,
    fields_spliced, mainLineTrace_of_line line]
  cases headed : (lines.map Site.form).any BodyLine.isHeader with
  | true => exact ⟨site.splicedTrace trace, [], by simp, by simp, by simp, by simp⟩
  | false =>
    cases header : site.form.isHeader with
    | true =>
      exact ⟨site.splicedTrace trace, [], by simp, by simp, by simp,
        by simp [own_of_isHeader header]⟩
    | false =>
      refine ⟨site.traced false ++ site.splicedTrace trace, site.form.own.fields, by simp, ?_,
        by simp, by simp⟩
      rw [fields_append, Site.ofTrace_traced_of_body header]

/-- With a placeholder there is one gap. The fields of the units around
it are those before and after the branches; they are in the same order if
fragments come first. -/
theorem mainTrace_of_placed (trace : String → List TracedUnit)
    (place : (lines.map Site.form).Pairwise BodyLine.PlaceBefore)
    (seen : hasPlaceholder (lines.map Site.form) = true) :
    ∃ front back, mainTrace trace lines = front.map some ++ none :: back.map some ∧
      ((Expansion.ofTrace front).fields ++ (Expansion.ofTrace back).fields).Perm
        (before (fun name => .ofTrace (trace name)) (lines.map Site.form)
          ++ after (lines.map Site.form)) ∧
      (FragmentsFirst lines →
        (Expansion.ofTrace front).fields
          = before (fun name => .ofTrace (trace name)) (lines.map Site.form) ∧
        (Expansion.ofTrace back).fields = after (lines.map Site.form)) := by
  induction lines using List.reverseRecOn with
  | nil => cases seen
  | append_singleton rest site ih =>
    have split := place
    rw [List.map_append, List.map_singleton, pairwise_concat] at split
    obtain ⟨placeRest, placeLast⟩ := split
    cases placed : hasPlaceholder (rest.map Site.form) with
    | false =>
      have here : site.form.isPlaceholder = true := by
        rw [List.map_append, List.map_singleton, hasPlaceholder_concat, placed] at seen
        exact seen
      have headless : (rest.map Site.form).any BodyLine.isHeader = false := by
        rw [List.any_eq_false]
        intro other mem
        simp [(placeLast other mem here).2.1]
      obtain ⟨front, main, fields, none⟩ :=
        mainTrace_of_placeholder trace placed headless here
      refine ⟨front, [], main, ?_, fun _ => ⟨fields, none.symm⟩⟩
      rw [fields, none]
      exact .refl _
    | true =>
      have line : site.form.isPlaceholder = false := by
        obtain ⟨other, mem, isPlace⟩ := List.any_eq_true.mp placed
        rw [← Bool.not_eq_true]
        intro again
        have none := (placeLast other mem again).1
        rw [isPlace] at none
        cases none
      obtain ⟨front, back, main, perm, ordered⟩ := ih placeRest placed
      obtain ⟨added, own, longer, fields, earlier, later⟩ :=
        mainTrace_behind trace placed line
      refine ⟨front, back ++ added, by simp [longer, main], ?_, fun first => ?_⟩
      · rw [fields_append, fields, earlier, later, ← List.append_assoc]
        refine (perm.append_right _).trans ?_
        rw [List.append_assoc, List.append_assoc, ← List.append_assoc (after _)]
        exact (List.perm_append_comm).append_left _
      · rw [FragmentsFirst, pairwise_concat] at first
        obtain ⟨other, mem, isPlace⟩ := List.any_eq_true.mp placed
        obtain ⟨place, inRest, rfl⟩ := List.mem_map.mp mem
        have spliced := splicedTrace_of_no_reference trace (first.2 place inRest isPlace)
        rw [spliced] at fields earlier
        obtain ⟨same, alike⟩ := ordered first.1
        refine ⟨?_, ?_⟩
        · rw [earlier, same]
          simp
        · rw [fields_append, fields, later, alike]
          simp

/-- Without a placeholder no line stands behind it. -/
theorem fragmentsFirst_of_unplaced (unseen : hasPlaceholder (lines.map Site.form) = false) :
    FragmentsFirst lines := by
  have none : ∀ site ∈ lines, site.form.isPlaceholder = false := by
    simpa [hasPlaceholder] using unseen
  refine List.pairwise_iff_forall_sublist.mpr fun {earlier later} pair isPlace => ?_
  rw [none earlier (pair.subset (by simp))] at isPlace
  cases isPlace

/-! ## Entries -/

/-- The units that have a field: all but the marks of repeated groups
that come from fragments. -/
def decoded (units : List TracedUnit) : List TracedUnit :=
  units.filter fun unit => !unit.isEmbeddedMark

/-- An entry next to the units that its lines give: they make up its
text, as many of them have a field as there are fields, and if they are
`ordered`, each field is the one that the line of the unit recorded. -/
structure Aligned (ordered : Prop) (units : List TracedUnit) (entry : String × SignatureEntry) :
    Prop where
  key : entry.1 = Signature.render (units.map TracedUnit.token)
  count : (decoded units).length = entry.2.params.length
  fields : ordered → (decoded units).map TracedUnit.field = entry.2.params.map some

/-- The fields of the units that have one are all fields that were
recorded. -/
theorem fields_decoded {units : List TracedUnit} (sound : FromLines units) :
    (decoded units).map TracedUnit.field = (Expansion.ofTrace units).fields.map some := by
  induction units with
  | nil => rfl
  | cons unit rest ih =>
    have later := ih fun other mem => sound other (by simp [mem])
    obtain ⟨site, embedded, produced⟩ := sound unit (by simp)
    have hasField := Site.field_eq_none_iff produced
    rw [decoded, Expansion.ofTrace] at later ⊢
    cases field : unit.field with
    | none =>
      rw [List.filter_cons_of_neg (by simp [hasField.mp field]),
        List.filterMap_cons_none field]
      exact later
    | some recorded =>
      have shown : unit.isEmbeddedMark = false := by
        rw [← Bool.not_eq_true, ← hasField, field]
        simp
      rw [List.filter_cons_of_pos (by simp [shown]), List.filterMap_cons_some field,
        List.map_cons, List.map_cons, field, later]

theorem aligned_of_perm {ordered : Prop} {units : List TracedUnit}
    {entry : String × SignatureEntry} (sound : FromLines units)
    (key : entry.1 = Signature.render (units.map TracedUnit.token))
    (perm : (Expansion.ofTrace units).fields.Perm entry.2.params)
    (same : ordered → (Expansion.ofTrace units).fields = entry.2.params) :
    Aligned ordered units entry where
  key := key
  count := by
    rw [← perm.length_eq, ← List.length_map TracedUnit.field, fields_decoded sound,
      List.length_map]
  fields first := by rw [fields_decoded sound, same first]

theorem fillGap_map_some (front branch : List TracedUnit) :
    fillGap (front.map some) branch = front := by
  simp [fillGap, List.flatMap_map]

/-- A branch in the gap, unit by unit. -/
theorem token_filled (sound : ∀ name, FromLines (trace name)) {branch : List TracedUnit}
    {written : WrittenBranch} (same : Expansion.ofTrace branch = written.content) :
    (fillGap (mainTrace trace lines) branch).map TracedUnit.token
      = signature (fun name => .ofTrace (trace name)) (lines.map Site.form) written := by
  rw [token_fillGap (fromLines_mainTrace sound lines), outline_of_mainTrace, signature, ← same]
  rfl

/-- The main body alone, unit by unit. -/
theorem token_unplaced {front : List TracedUnit} (main : mainTrace trace lines = front.map some) :
    front.map TracedUnit.token
      = Outline.main (fun name => .ofTrace (trace name)) (lines.map Site.form) := by
  rw [← outline_of_mainTrace, main, List.map_map]
  rfl

/-- The units of the entries are those of the outline. -/
theorem entryTraces_tokens (sound : ∀ name, FromLines (trace name)) (lines : List Site) :
    (entryTraces trace lines).map (List.map TracedUnit.token)
      = signatures (fun name => .ofTrace (trace name)) (lines.map Site.form) := by
  unfold entryTraces signatures
  rw [← hasPlaceholder_forms]
  cases seen : hasPlaceholder (lines.map Site.form) with
  | true =>
    rw [if_pos rfl, if_pos rfl, ← List.forall₂_eq_eq_eq, List.forall₂_map_left_iff,
      List.forall₂_map_left_iff, List.forall₂_map_right_iff]
    exact (outline_of_filledTraces lines).imp fun _ _ same => token_filled sound same
  | false =>
    obtain ⟨front, main, _⟩ := mainTrace_of_unplaced trace seen
    rw [if_neg (by simp), if_neg (by simp), List.map_singleton, main, fillGap_map_some,
      token_unplaced main]

/-- A branch in the gap, next to its entry. -/
theorem aligned_filled (sound : ∀ name, FromLines (trace name))
    (place : (lines.map Site.form).Pairwise BodyLine.PlaceBefore)
    (seen : hasPlaceholder (lines.map Site.form) = true) {branch : List TracedUnit}
    {written : WrittenBranch} (fromLines : FromLines branch)
    (same : Expansion.ofTrace branch = written.content) :
    Aligned (FragmentsFirst lines) (fillGap (mainTrace trace lines) branch)
      (entry (fun name => .ofTrace (trace name)) (lines.map Site.form) written) := by
  obtain ⟨front, back, main, perm, ordered⟩ := mainTrace_of_placed trace place seen
  have units : fillGap (mainTrace trace lines) branch = front ++ branch ++ back := by
    rw [main, fillGap, List.flatMap_append, List.flatMap_cons]
    exact (congrArg₂ (fun front back => front ++ (branch ++ back)) (fillGap_map_some front branch)
      (fillGap_map_some back branch)).trans (List.append_assoc ..).symm
  have fields : (Expansion.ofTrace (fillGap (mainTrace trace lines) branch)).fields
      = (Expansion.ofTrace front).fields ++ written.content.fields
        ++ (Expansion.ofTrace back).fields := by
    rw [units, fields_append, fields_append, same]
  refine aligned_of_perm ((fromLines_mainTrace sound lines).fillGap fromLines)
    (congrArg Signature.render (token_filled sound same).symm) ?_ fun first => ?_
  · rw [fields, entry]
    -- the fields of the branch change sides with those of the units behind the gap
    have shift {first second third : List Field} :
        (first ++ second ++ third).Perm (first ++ third ++ second) := by
      rw [List.append_assoc, List.append_assoc]
      exact List.perm_append_comm.append_left first
    exact shift.trans ((perm.append_right _).trans shift)
  · rw [fields, entry, (ordered first).1, (ordered first).2]

/-- Every entry stands next to its units. -/
theorem entryTraces_aligned (sound : ∀ name, FromLines (trace name))
    (place : (lines.map Site.form).Pairwise BodyLine.PlaceBefore) :
    List.Forall₂ (Aligned (FragmentsFirst lines)) (entryTraces trace lines)
      (entries (fun name => .ofTrace (trace name)) (lines.map Site.form)) := by
  unfold entryTraces entries
  rw [← hasPlaceholder_forms]
  cases seen : hasPlaceholder (lines.map Site.form) with
  | true =>
    rw [if_pos rfl, if_pos rfl, List.forall₂_map_left_iff, List.forall₂_map_right_iff]
    have fromLines : ∀ branch ∈ (branchTraces lines).filter fun branch =>
        (Expansion.ofTrace branch).signature.render != "", FromLines branch :=
      fun branch mem => fromLines_branchTraces (List.mem_filter.mp mem).1
    exact ((List.forall₂_and_left _ _).mpr ⟨fromLines, outline_of_filledTraces lines⟩).imp
      fun _ _ known => aligned_filled sound place seen known.1 known.2
  | false =>
    obtain ⟨front, main, fields, _⟩ := mainTrace_of_unplaced trace seen
    rw [if_neg (by simp), if_neg (by simp)]
    have units : fillGap (mainTrace trace lines) [] = front := by
      rw [main, fillGap_map_some]
    refine .cons (aligned_of_perm ?_ ?_ ?_ fun _ => ?_) .nil
    · exact (fromLines_mainTrace sound lines).fillGap fun _ none => nomatch none
    · rw [units, token_unplaced main]
    · rw [units, fields]
    · rw [units, fields]

/-! ## What is collected -/

namespace Assembly

variable {flat : String → Expansion} {done : List BodyLine} {made : Assembly}

/-- The units that the entries are written from: the main body with each
branch in the place of the placeholder, or else the main body alone. -/
def expanded (made : Assembly) : List Signature :=
  if made.placeholder.isSome then
    made.withClosed.branches.map fun branch => Signature.expand made.main branch.signature
  else [made.main]

/-- The expanded units are those of the outline. -/
theorem Follows.expanded (follows : Follows flat done made) :
    made.expanded = signatures flat done := by
  unfold Assembly.expanded signatures
  rw [follows.placeholder, follows.main]
  refine if_congr Iff.rfl ?_ rfl
  calc made.withClosed.branches.map
        (fun branch => Signature.expand (Outline.main flat done) branch.signature)
      = (made.withClosed.branches.map Branch.draft).map
          fun draft => Signature.expand (Outline.main flat done) draft.2.signature := by
        rw [List.map_map]
        rfl
    _ = ((filledBranches done).map WrittenBranch.draft).map
          fun draft => Signature.expand (Outline.main flat done) draft.2.signature := by
        rw [withClosed, follows.branches.closed]
    _ = (filledBranches done).map (signature flat done) := by
        rw [List.map_map]
        rfl

end Assembly

/-! ## Compiled packets -/

/-- The kept expansions have traces, which can be told by the names. -/
theorem Expansions.Traced.exists_trace {fragments : OrderedMap Fragment} {known : Expansions}
    (traced : Expansions.Traced fragments known) :
    ∃ trace : String → List TracedUnit, (∀ name, FromLines (trace name)) ∧
      ∀ name expansion, known.get? name = some expansion →
        TracesFragment fragments name (trace name) ∧ expansion = .ofTrace (trace name) := by
  have each : ∀ name, ∃ units, FromLines units ∧ ∀ expansion, known.get? name = some expansion →
      TracesFragment fragments name units ∧ expansion = .ofTrace units := by
    intro name
    cases kept : known.get? name with
    | none => exact ⟨[], fun _ none => (nomatch none), fun _ none => nomatch none⟩
    | some expansion =>
      obtain ⟨units, traces, same⟩ := traced name expansion kept
      refine ⟨units, fun unit mem => ?_, fun other found => ?_⟩
      · obtain ⟨_, _, _, _, lines⟩ := traces
        obtain ⟨site, produced⟩ := lines.mem mem
        exact ⟨site, true, produced⟩
      · cases found
        exact ⟨traces, same⟩
  choose trace sound kept using each
  exact ⟨trace, sound, kept⟩

namespace Workspace

variable {workspace : Workspace} {operation : Operation} {header : String} {set : SignatureSet}

/-- What an operation keeps for a packet for the first time is what its
lines come to, with the expansions that are kept by then. -/
theorem assembled_of_compiled (fresh : workspace.results.packets.get? header = none)
    (compiled : (workspace.perform operation).results.packets.get? header = some set) :
    ∃ packet, (workspace.perform operation).declared = workspace.declared ∧
      workspace.declared.packets.get? header = some packet ∧
      Assembly.assembled (remembered workspace.declared.fragments
        (workspace.perform operation).results.expansions) packet.body.lines = .ok set := by
  rcases perform_cases workspace operation with same | ⟨still, advance⟩
  · rw [same, fresh] at compiled
    cases compiled
  · rcases advance.packets header with same | ⟨_, packet, other, declared, kept, made⟩
    · rw [same, fresh] at compiled
      cases compiled
    · rw [compiled] at kept
      cases kept
      exact ⟨packet, still, declared, made⟩

/-- When a packet is compiled, by whatever operation and after whatever
was done before, the units that its entries are written from are those
that its lines give, and every entry stands next to its own. The fragments
give the units that are kept of them, and these come from the lines that
they had when they were compiled. -/
theorem compiled_aligned (reached : Reached Operation.Any workspace)
    (fresh : workspace.results.packets.get? header = none)
    (compiled : (workspace.perform operation).results.packets.get? header = some set) :
    ∃ packet made trace, workspace.declared.packets.get? header = some packet ∧
      packet.body.lines.foldlM (Assembly.step (remembered workspace.declared.fragments
        (workspace.perform operation).results.expansions)) {} = .ok made ∧
      made.finished = .ok set ∧
      (∀ name ∈ packet.body.references,
        TracesFragment workspace.declared.fragments name (trace name) ∧
        (workspace.perform operation).results.expansions.get? name
          = some (.ofTrace (trace name))) ∧
      (entryTraces trace packet.body.lines).map (List.map TracedUnit.token) = made.expanded ∧
      List.Forall₂ (Aligned (FragmentsFirst packet.body.lines))
        (entryTraces trace packet.body.lines) set.entries ∧
      (hasPlaceholder packet.forms = false → FragmentsFirst packet.body.lines) := by
  have after : Reached Operation.Any (workspace.perform operation) := reached.perform trivial
  obtain ⟨packet, still, declared, assembled⟩ := assembled_of_compiled fresh compiled
  obtain ⟨made, run, finished⟩ := Assembly.assembled_eq_ok_iff.mp assembled
  have traced := traced_of_reached after
  rw [still] at traced
  obtain ⟨trace, sound, kept⟩ := traced.exists_trace
  have flattens : ∀ name site found, remembered workspace.declared.fragments
      (workspace.perform operation).results.expansions name site = .ok found →
      found = .ofTrace (trace name) := fun name _ found here =>
    (kept name found (remembered_eq_ok_iff.mp here).2).2
  have plain : ∀ name site found, remembered workspace.declared.fragments
      (workspace.perform operation).results.expansions name site = .ok found → found.Plain :=
    fun name _ found here => plain_expansions after name found (remembered_eq_ok_iff.mp here).2
  obtain ⟨listed, _, lines⟩ := Assembly.assembled_eq_ok flattens plain assembled
  have rules : WellFormed packet.forms :=
    (Assembly.exists_assembled_iff flattens (fun site mem => (lines site mem).1)
      fun site mem => (lines site mem).2).mp ⟨set, assembled⟩
  have units := (entryTraces_tokens sound packet.body.lines).trans
    (Assembly.follows_of_foldlM flattens run).expanded.symm
  refine ⟨packet, made, trace, declared, run, finished, fun name mem => ?_, units, ?_,
    fragmentsFirst_of_unplaced⟩
  · obtain ⟨site, inBody, ref⟩ := Body.mem_references.mp mem
    have form := BodyLine.eq_of_reference ref
    obtain ⟨part, found⟩ := (lines site inBody).2
    rw [form] at found
    have there := (remembered_eq_ok_iff.mp found).2
    obtain ⟨traces, rfl⟩ := kept name part there
    exact ⟨traces, there⟩
  · rw [listed]
    exact entryTraces_aligned sound rules.place

/-- One more packet after the small session. A fragment brings a repeated
group in, the packet marks one itself, and one unit has no text. -/
def trailSession : List Operation :=
  [.registerPacket "Trail" "70" ⟨16, "Packet[Trail]:70"⟩,
   .addLine (.packet "70") ⟨17, "+ Fragment[Path]"⟩,
   .addLine (.packet "70") ⟨18, "pad-0"⟩,
   .addLine (.packet "70") ⟨19, "+ SubCate"⟩,
   .addLine (.packet "70") ⟨20, "+ REP"⟩,
   .addLine (.packet "70") ⟨21, "time:$1"⟩,
   .addLine (.packet "70") ⟨22, "- REP"⟩,
   .addLine (.packet "70") ⟨23, "SubCate[run]:01"⟩,
   .addLine (.packet "70") ⟨24, "speed:$1"⟩]

/-- The workspace in which that packet can be compiled. -/
def trail : Workspace :=
  trailSession.foldl perform sample

/-- The entry has seven fields for nine units: two of the units are the
marks of the fragment. -/
theorem compiled_aligned_trail :
    Reached Operation.Any trail ∧
    trail.results.packets.get? "70" = none ∧
    ∃ set packet trace, (trail.perform .compileAll).results.packets.get? "70" = some set ∧
      set.entries.map (fun entry => (entry.1, entry.2.params.map Field.name))
        = [("[REPS] $2 [REPE] 01 $1 [REPS] $1 [REPE]",
            ["x", "Padding", "- SubCate -", "speed", "-", "time", "-"])] ∧
      trail.declared.packets.get? "70" = some packet ∧
      (entryTraces trace packet.body.lines).map (List.map TracedUnit.token)
        = [[.repeatStart, .size 2, .repeatEnd, .padding 0, .hex "01", .size 1, .repeatStart,
            .size 1, .repeatEnd]] ∧
      List.Forall₂ (fun units entry =>
          (decoded units).map TracedUnit.field = entry.2.params.map some)
        (entryTraces trace packet.body.lines) set.entries := by
  have reached : Reached Operation.Any trail :=
    reached_sample.session (session_any sample trailSession)
  have fresh : trail.results.packets.get? "70" = none := by decide +kernel
  have shown : ((trail.perform .compileAll).results.packets.get? "70").map
        (fun set => set.entries.map fun entry => (entry.1, entry.2.params.map Field.name))
      = some [("[REPS] $2 [REPE] 01 $1 [REPS] $1 [REPE]",
          ["x", "Padding", "- SubCate -", "speed", "-", "time", "-"])] := by decide +kernel
  have first : ∀ packet ∈ trail.declared.packets.get? "70",
      FragmentsFirst packet.body.lines := by decide +kernel
  have expanded : ∀ packet ∈ trail.declared.packets.get? "70",
      ((packet.body.lines.foldlM (Assembly.step (remembered trail.declared.fragments
        (trail.perform .compileAll).results.expansions)) {}).toOption.map Assembly.expanded)
      = some [[.repeatStart, .size 2, .repeatEnd, .padding 0, .hex "01", .size 1, .repeatStart,
          .size 1, .repeatEnd]] := by decide +kernel
  obtain ⟨set, compiled, listed⟩ := Option.map_eq_some_iff.mp shown
  obtain ⟨packet, made, trace, declared, run, _, _, units, aligned, _⟩ :=
    compiled_aligned reached fresh compiled
  have known := expanded packet declared
  rw [run] at known
  refine ⟨reached, fresh, set, packet, trace, compiled, listed, declared,
    units.trans (Option.some.inj known), ?_⟩
  exact aligned.imp fun _ _ lined => lined.fields (first packet declared)

end Workspace

end PacketLayout
