/-
PacketLayout.Proofs.Packet.Tracing — which line produced which unit of a
packet.

The outline of a packet says which units and which fields its lines give.
Here the units are read off the lines together with the line that
produced each of them: the main body with a gap for the branches, the
branches, and the main body with a branch in the gap. `trace` says which
units the fragments give.

* `outline_of_mainTrace`, `outline_of_branchTraces`: without the lines,
  the traces are what the outline says.
* `token_fillGap`: filling the gap is putting the branch in the place of
  the mark.
-/
import Mathlib.Data.List.ReduceOption
import Mathlib.Data.List.TakeWhile
import PacketLayout.Proofs.Expansion.Traces
import PacketLayout.Proofs.Packet.Keys
import PacketLayout.Proofs.Packet.WellFormed

namespace PacketLayout

open Outline

/-! ## Lines -/

namespace Site

theorem ofTrace_traced_of_body {site : Site} (body : site.form.isHeader = false) :
    Expansion.ofTrace (site.traced false) = site.form.own := by
  unfold traced
  cases form : site.form with
  | field line => rfl
  | branch header => rw [form] at body; cases body
  | unrecognized => rfl
  | control line => cases line <;> rfl

theorem ofTrace_traced_of_header {site : Site} {header : BranchHeader}
    (form : site.form = .branch header) :
    Expansion.ofTrace (site.traced false) = header.lead := by
  simp only [traced, form, BranchHeader.lead]
  cases header.discriminator <;> rfl

/-- A unit is that of a field line, the bytes of a branch header, or the
mark of a repeated group; only the last has no field, in a fragment. -/
theorem traced_cases {site : Site} {embedded : Bool} {unit : TracedUnit}
    (mem : unit ∈ site.traced embedded) :
    (∃ line, site.form = .field line ∧ unit = ⟨site, embedded, line.token, some line.field⟩) ∨
    (∃ bytes, unit = ⟨site, embedded, .hex bytes, some .discriminator⟩) ∨
    ((unit.token = .repeatStart ∨ unit.token = .repeatEnd) ∧ unit.embedded = embedded ∧
      unit.field = if embedded then none else some .placeholder) := by
  unfold traced at mem
  cases form : site.form with
  | field line =>
    rw [form] at mem
    exact .inl ⟨line, rfl, by simpa using mem⟩
  | branch header =>
    rw [form] at mem
    obtain ⟨bytes, _, rfl⟩ := List.mem_map.mp mem
    exact .inr (.inl ⟨bytes, rfl⟩)
  | unrecognized =>
    rw [form] at mem
    cases mem
  | control line =>
    rw [form] at mem
    cases line with
    | repeatStart =>
      obtain rfl : unit = _ := List.mem_singleton.mp mem
      exact .inr (.inr ⟨.inl rfl, rfl, rfl⟩)
    | repeatEnd =>
      obtain rfl : unit = _ := List.mem_singleton.mp mem
      exact .inr (.inr ⟨.inr rfl, rfl, rfl⟩)
    | fragmentRef name => cases mem
    | placeholder => cases mem
    | pack => cases mem

/-- No line produces a mark for the branches. -/
theorem traced_plain {site : Site} {embedded : Bool} {unit : TracedUnit}
    (mem : unit ∈ site.traced embedded) : unit.token ≠ .subCategory := by
  rcases traced_cases mem with ⟨line, form, rfl⟩ | ⟨bytes, rfl⟩ | ⟨start | stop, _⟩
  · have plain := site.plain_own
    rw [form] at plain
    exact (plain line.token (by simp [BodyLine.own])).ne_subCategory
  · exact Token.noConfusion
  · rw [start]
    exact Token.noConfusion
  · rw [stop]
    exact Token.noConfusion

/-- A line records a field for every unit, except for the mark of a
repeated group in a fragment. -/
theorem field_eq_none_iff {site : Site} {embedded : Bool} {unit : TracedUnit}
    (mem : unit ∈ site.traced embedded) : unit.field = none ↔ unit.isEmbeddedMark = true := by
  rcases traced_cases mem with ⟨line, form, rfl⟩ | ⟨bytes, rfl⟩ | ⟨mark, same, field⟩
  · have read := BodyLine.read_eq_field (form_eq form (by simp))
    simp [TracedUnit.isEmbeddedMark, FieldLine.repeatMark?_of_read read]
  · simp [TracedUnit.isEmbeddedMark, Token.repeatMark?]
  · have isMark : unit.token.repeatMark?.isSome = true := by
      rcases mark with start | stop
      · rw [start]
        rfl
      · rw [stop]
        rfl
    rw [TracedUnit.isEmbeddedMark, isMark, same, field]
    cases embedded <;> simp

/-- The units that a line brings in from a fragment. -/
def splicedTrace (trace : String → List TracedUnit) (site : Site) : List TracedUnit :=
  match site.form.reference? with
  | some name => trace name
  | none => []

theorem ofTrace_splicedTrace (trace : String → List TracedUnit) (site : Site) :
    Expansion.ofTrace (site.splicedTrace trace)
      = site.form.spliced fun name => .ofTrace (trace name) := by
  unfold splicedTrace
  cases site.form with
  | field line => rfl
  | branch header => rfl
  | unrecognized => rfl
  | control line => cases line <;> rfl

end Site

/-! ## The parts of a packet -/

section Parts

variable (trace : String → List TracedUnit)

/-- The units of a line of the main body; the placeholder leaves a gap. -/
def mainLineTrace (site : Site) : List (Option TracedUnit) :=
  if site.form.isPlaceholder then [none]
  else (site.traced false ++ site.splicedTrace trace).map some

/-- The units of the main body: those of the lines before the first
branch, and of every fragment. -/
def mainTrace (lines : List Site) : List (Option TracedUnit) :=
  (lines.takeWhile fun site => !site.form.isHeader).flatMap (mainLineTrace trace)
    ++ (lines.dropWhile fun site => !site.form.isHeader).flatMap fun site =>
      (site.splicedTrace trace).map some

/-- The units of the branches: those of the header and of the lines up to
the next header. -/
def branchTraces : List Site → List (List TracedUnit)
  | [] => []
  | site :: rest =>
    if site.form.isHeader then
      (site :: rest.takeWhile fun site => !site.form.isHeader).flatMap (Site.traced false)
        :: branchTraces rest
    else branchTraces rest

/-- A branch in the gap of the main body. -/
def fillGap (main : List (Option TracedUnit)) (branch : List TracedUnit) : List TracedUnit :=
  main.flatMap fun
    | some unit => [unit]
    | none => branch

/-- The units of the entries: one list for each branch that has a text,
or else one for the main body alone. -/
def entryTraces (lines : List Site) : List (List TracedUnit) :=
  if lines.any fun site => site.form.isPlaceholder then
    ((branchTraces lines).filter fun branch =>
      (Expansion.ofTrace branch).signature.render != "").map (fillGap (mainTrace trace lines))
  else [fillGap (mainTrace trace lines) []]

end Parts

/-- The signatures of the entries, unit by unit. -/
def Outline.signatures (flat : String → Expansion) (lines : List BodyLine) : List Signature :=
  if hasPlaceholder lines then (filledBranches lines).map (signature flat lines)
  else [main flat lines]

/-! ## The parts and the outline -/

variable {trace : String → List TracedUnit}

theorem mem_takeWhile_body {lines : List Site} {site : Site}
    (mem : site ∈ lines.takeWhile fun site => !site.form.isHeader) :
    site.form.isHeader = false := by
  simpa using List.mem_takeWhile_imp mem

theorem token_mainLineTrace {site : Site} (body : site.form.isHeader = false) :
    (mainLineTrace trace site).map (fun unit => unit.elim .subCategory TracedUnit.token)
      = site.form.mainUnits fun name => .ofTrace (trace name) := by
  have own : (site.traced false).map TracedUnit.token = site.form.own.signature :=
    congrArg Expansion.signature (Site.ofTrace_traced_of_body body)
  have spliced : (site.splicedTrace trace).map TracedUnit.token
      = (site.form.spliced fun name => .ofTrace (trace name)).signature :=
    congrArg Expansion.signature (site.ofTrace_splicedTrace trace)
  have units : ((site.traced false ++ site.splicedTrace trace).map some).map
        (fun unit => unit.elim .subCategory TracedUnit.token)
      = site.form.own.signature
        ++ (site.form.spliced fun name => .ofTrace (trace name)).signature := by
    rw [← own, ← spliced, ← List.map_append, List.map_map]
    rfl
  unfold mainLineTrace
  cases form : site.form with
  | control line =>
    rw [form] at units
    cases line with
    | placeholder => rfl
    | _ => exact units
  | _ =>
    rw [form] at units
    exact units

/-- The units of the main body, with a mark for the gap. -/
theorem outline_of_mainTrace (lines : List Site) :
    (mainTrace trace lines).map (fun unit => unit.elim .subCategory TracedUnit.token)
      = Outline.main (fun name => .ofTrace (trace name)) (lines.map Site.form) := by
  simp only [mainTrace, Outline.main, parted, List.takeWhile_map, List.dropWhile_map,
    List.flatMap_map, List.map_append, List.map_flatMap, Function.comp_def]
  refine congrArg₂ (· ++ ·) (List.flatMap_congr fun site mem => ?_)
    (List.flatMap_congr fun site _ => ?_)
  · exact token_mainLineTrace (mem_takeWhile_body mem)
  · rw [← site.ofTrace_splicedTrace trace, List.map_map]
    rfl

theorem Expansion.ofTrace_flatMap (lines : List Site) (units : Site → List TracedUnit) :
    Expansion.ofTrace (lines.flatMap units)
      = .concat (lines.map fun site => .ofTrace (units site)) := by
  induction lines with
  | nil => rfl
  | cons site rest ih =>
    rw [List.flatMap_cons, ofTrace_append, ih]
    rfl

/-- The units of the branches, and the fields that were recorded for
them. -/
theorem outline_of_branchTraces (lines : List Site) :
    (branchTraces lines).map Expansion.ofTrace
      = (writtenBranches (lines.map Site.form)).map WrittenBranch.content := by
  induction lines with
  | nil => rfl
  | cons site rest ih =>
    rw [branchTraces, List.map_cons]
    cases form : site.form with
    | branch header =>
      have isHeader : (BodyLine.branch header).isHeader = true := rfl
      rw [if_pos isHeader, writtenBranches, List.map_cons, List.map_cons, ih, List.flatMap_cons,
        Expansion.ofTrace_append, Expansion.ofTrace_flatMap, Site.ofTrace_traced_of_header form,
        WrittenBranch.content, opening, List.takeWhile_map, List.map_map]
      refine congrArg (fun lines => header.lead.append (.concat lines) :: _) ?_
      refine List.map_congr_left fun other mem => ?_
      exact Site.ofTrace_traced_of_body (mem_takeWhile_body mem)
    | field line => exact ih
    | unrecognized => exact ih
    | control line => exact ih

theorem hasPlaceholder_forms (lines : List Site) :
    hasPlaceholder (lines.map Site.form) = lines.any fun site => site.form.isPlaceholder := by
  simp [hasPlaceholder, Function.comp_def]

/-- The branches that have a text, and what the outline says of them. -/
theorem outline_of_filledTraces (lines : List Site) :
    List.Forall₂ (fun branch written => Expansion.ofTrace branch = written.content)
      ((branchTraces lines).filter fun branch =>
        (Expansion.ofTrace branch).signature.render != "")
      (filledBranches (lines.map Site.form)) := by
  have contents : ((branchTraces lines).filter fun branch =>
        (Expansion.ofTrace branch).signature.render != "").map Expansion.ofTrace
      = (filledBranches (lines.map Site.form)).map WrittenBranch.content := by
    have same := congrArg (List.filter fun content : Expansion => content.signature.render != "")
      (outline_of_branchTraces lines)
    rw [List.filter_map, List.filter_map] at same
    exact same
  rw [← List.forall₂_eq_eq_eq, List.forall₂_map_left_iff, List.forall₂_map_right_iff] at contents
  exact contents

/-! ## Units and their lines -/

/-- Every unit is what some line produces. -/
def FromLines (units : List TracedUnit) : Prop :=
  ∀ unit ∈ units, ∃ (site : Site) (embedded : Bool), unit ∈ site.traced embedded

theorem FromLines.append {first second : List TracedUnit} (one : FromLines first)
    (two : FromLines second) : FromLines (first ++ second) := by
  intro unit mem
  rcases List.mem_append.mp mem with inFirst | inSecond
  · exact one unit inFirst
  · exact two unit inSecond

theorem fromLines_traced (site : Site) (embedded : Bool) : FromLines (site.traced embedded) :=
  fun _ mem => ⟨site, embedded, mem⟩

theorem fromLines_spliced (sound : ∀ name, FromLines (trace name)) (site : Site) :
    FromLines (site.splicedTrace trace) := by
  unfold Site.splicedTrace
  cases site.form.reference? with
  | some name => exact sound name
  | none => exact fun _ mem => nomatch mem

theorem fromLines_mainTrace (sound : ∀ name, FromLines (trace name)) (lines : List Site) :
    FromLines (mainTrace trace lines).reduceOption := by
  intro unit mem
  rw [List.reduceOption_mem_iff, mainTrace, List.mem_append, List.mem_flatMap,
    List.mem_flatMap] at mem
  obtain ⟨site, _, mem⟩ | ⟨site, _, mem⟩ := mem
  · unfold mainLineTrace at mem
    split at mem
    · simp at mem
    · exact (fromLines_traced site false).append (fromLines_spliced sound site) unit
        (by simpa using mem)
  · exact fromLines_spliced sound site unit (by simpa using mem)

theorem fromLines_branchTraces {lines : List Site} {branch : List TracedUnit}
    (mem : branch ∈ branchTraces lines) : FromLines branch := by
  induction lines with
  | nil => cases mem
  | cons site rest ih =>
    rw [branchTraces] at mem
    split at mem
    · rcases List.mem_cons.mp mem with rfl | mem
      · intro unit there
        obtain ⟨line, _, produced⟩ := List.mem_flatMap.mp there
        exact ⟨line, false, produced⟩
      · exact ih mem
    · exact ih mem

theorem FromLines.fillGap {main : List (Option TracedUnit)} {branch : List TracedUnit}
    (inMain : FromLines main.reduceOption) (inBranch : FromLines branch) :
    FromLines (fillGap main branch) := by
  intro unit mem
  obtain ⟨place, there, mem⟩ := List.mem_flatMap.mp mem
  cases place with
  | none => exact inBranch unit mem
  | some other =>
    obtain rfl : unit = other := List.mem_singleton.mp mem
    exact inMain unit (List.reduceOption_mem_iff.mpr there)

/-- Filling the gap is putting the branch in the place of the mark. -/
theorem token_fillGap {main : List (Option TracedUnit)} (plain : FromLines main.reduceOption)
    (branch : List TracedUnit) :
    (fillGap main branch).map TracedUnit.token
      = Signature.expand (main.map fun unit => unit.elim .subCategory TracedUnit.token)
          (branch.map TracedUnit.token) := by
  rw [fillGap, Signature.expand, List.map_flatMap, List.flatMap_map]
  refine List.flatMap_congr fun place mem => ?_
  cases place with
  | none => exact (if_pos rfl).symm
  | some unit =>
    obtain ⟨site, embedded, produced⟩ := plain unit (List.reduceOption_mem_iff.mpr mem)
    exact (if_neg (Site.traced_plain produced)).symm

end PacketLayout
