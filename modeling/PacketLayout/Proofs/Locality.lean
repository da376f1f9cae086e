/-
PacketLayout.Proofs.Locality — what an outcome depends on.

What compiling comes to is a matter of the lines that are compiled and of
the fragments that can be reached from them. Neither the rest of the
declarations nor their order counts, nor what was compiled before, nor
what failed: two workspaces of sealed sessions that agree on these lines
cannot be told apart by compiling them. Nor does it count whether a
declaration is compiled for its own sake or along with everything.

* `Workspace.compile_local`: all of this, for fragments, for packets and
  for compiling everything.
-/
import PacketLayout.Proofs.Expansion.References

namespace PacketLayout

open Relation Text

/-! ## The lines of a packet -/

namespace Assembly

variable {expand other : String → Site → Except Failure Expansion}

theorem step_congr {site : Site}
    (same : ∀ name, site.form.reference? = some name → expand name site = other name site)
    (made : Assembly) : made.step expand site = made.step other site := by
  unfold Site.form at same
  unfold step
  cases read : BodyLine.read site.raw.toList with
  | error cause => rfl
  | ok line =>
    rw [read] at same
    have part : line.part expand site = line.part other site := by
      unfold BodyLine.part
      split
      · exact same _ rfl
      · rfl
    simp only [part]

theorem foldlM_step_congr {lines : List Site}
    (same : ∀ site ∈ lines, ∀ name, site.form.reference? = some name →
      expand name site = other name site) (made : Assembly) :
    lines.foldlM (step expand) made = lines.foldlM (step other) made := by
  induction lines generalizing made with
  | nil => rfl
  | cons site rest ih =>
    rw [List.foldlM_cons, List.foldlM_cons, step_congr (same site (by simp)) made]
    exact bind_congr fun next => ih (fun place mem => same place (by simp [mem])) next

/-- Only what the expanders find for the references counts. -/
theorem assembled_congr {lines : List Site}
    (same : ∀ site ∈ lines, ∀ name, site.form.reference? = some name →
      expand name site = other name site) :
    assembled expand lines = assembled other lines := by
  unfold assembled
  rw [foldlM_step_congr same]

end Assembly

/-- Of the fragments, only the lines of those count that can be reached
from the packet. -/
theorem assembled_expandAfresh_congr {fragments others : OrderedMap Fragment} {body : Body}
    (same : ∀ name, body.Reaches fragments name → SameLines fragments others name) :
    Assembly.assembled (expandAfresh fragments []) body.lines
      = Assembly.assembled (expandAfresh others []) body.lines := by
  refine Assembly.assembled_congr fun site mem name ref => ?_
  refine expandAfresh_congr (fun reached way => ?_) [] site
  exact same reached ⟨name, Body.mem_references.mpr ⟨site, mem, ref⟩, way⟩

/-! ## Compiling -/

namespace Workspace

variable {workspace : Workspace}

/-- The first failure among the outcomes of compiling each fragment and
then each packet alone, all from the same workspace. -/
def eachAlone (workspace : Workspace) : Except Failure Unit := do
  workspace.declared.fragments.values.forM fun fragment =>
    (workspace.compileFragment fragment.name ⟨fragment.line, fragment.name⟩).1.map fun _ => ()
  workspace.declared.packets.keys.forM fun header => (workspace.compilePacket header).1

theorem compileAll_eq_eachAlone (workspace : Workspace) :
    workspace.compileAll.1 = workspace.eachAlone := by
  have fragments : (fun fragment : Fragment =>
      (workspace.compileFragment fragment.name ⟨fragment.line, fragment.name⟩).1.map fun _ => ())
      = fun fragment =>
        (declaredOutcome workspace.declared workspace.results fragment).map fun _ => () := by
    funext fragment
    exact congrArg (Except.map _) (compileFragment_ends _ _ _ workspace.results).1
  have packets : (fun header => (workspace.compilePacket header).1)
      = fun header =>
        (packetOutcome workspace.declared workspace.results header).map fun _ => () := by
    funext header
    exact (compilePacket_ends _ header workspace.results).1
  unfold eachAlone
  rw [fragments, packets]
  exact (compileAll_ends _ workspace.results).1

/-- Signatures that are kept are those that compiling comes to. -/
theorem packetSignatures_of_kept {results : Results}
    (settled : Settled workspace.results workspace.declared)
    (later : Settled results workspace.declared) {header : String} {set : SignatureSet}
    (kept : results.packets.get? (upper header) = some set) :
    workspace.packetSignatures header = .ok (some set) := by
  obtain ⟨packet, declared, _⟩ := later.packets _ set kept
  have afresh : packetAfresh workspace.declared header = .ok set := by
    rw [← later.packetOutcome_eq]
    unfold packetOutcome
    simp only [declared, kept]
  rw [compilePacket_settled settled, afresh]
  rfl

/-- Expansions that are kept are those that compiling comes to. -/
theorem compileFragment_of_kept {results : Results}
    (settled : Settled workspace.results workspace.declared)
    (later : Settled results workspace.declared) {name : String} {expansion : Expansion}
    (kept : results.expansions.get? name = some expansion) (site : Site) :
    (workspace.compileFragment name site).1 = .ok expansion := by
  obtain ⟨fragment, declared⟩ := later.coherent.grown.declared_of_kept kept
  rw [compileFragment_settled settled, ← later.coherent.expandGiven_eq]
  simp only [expandGiven_eq, declared, kept]

/-- What compiling comes to after a sealed session depends on nothing but
the lines that are compiled and the lines of the fragments that can be
reached from them. In particular, compiling everything comes to what
compiling each declaration alone comes to, and keeps nothing else. -/
theorem compile_local {first second : Workspace} (one : Reached Operation.Sealed first)
    (two : Reached Operation.Sealed second) :
    (∀ name site,
      (∀ inner, ReflTransGen (Refers first.declared.fragments) name inner →
        SameLines first.declared.fragments second.declared.fragments inner) →
      (first.compileFragment name site).1 = (second.compileFragment name site).1) ∧
    (∀ header packet, first.declared.packets.get? (upper header) = some packet →
      ∀ header' packet', second.declared.packets.get? (upper header') = some packet' →
      packet.body = packet'.body →
      (∀ inner, packet.body.Reaches first.declared.fragments inner →
        SameLines first.declared.fragments second.declared.fragments inner) →
      first.packetSignatures header = second.packetSignatures header' ∧
        first.packetSignatures header ≠ .ok none) ∧
    first.compileAll.1 = first.eachAlone ∧
    (∀ name expansion, first.compileAll.2.results.expansions.get? name = some expansion →
      ∀ site, (first.compileFragment name site).1 = .ok expansion) ∧
    (∀ header set, first.compileAll.2.results.packets.get? (upper header) = some set →
      first.packetSignatures header = .ok (some set)) ∧
    (first.compileAll.1 = .ok () → ∀ header ∈ first.declared.packets.keys,
      ∃ set, first.compileAll.2.results.packets.get? (upper header) = some set) := by
  have settled := settled_of_reached one
  obtain ⟨_, advance, all⟩ := compileAll_ends first.declared first.results
  have eager : Settled first.compileAll.2.results first.declared := settled.advance advance
  refine ⟨fun name site same => ?_, ?_, compileAll_eq_eachAlone first,
    fun _ _ kept site => compileFragment_of_kept settled eager kept site,
    fun _ _ kept => packetSignatures_of_kept settled eager kept, all⟩
  · rw [compileFragment_settled settled, compileFragment_settled (settled_of_reached two)]
    exact expandAfresh_congr same [] site
  · intro header packet there header' packet' there' body same
    rw [compilePacket_settled settled, compilePacket_settled (settled_of_reached two)]
    unfold packetAfresh
    simp only [there, there', ← body, ← assembled_expandAfresh_congr same]
    refine ⟨trivial, ?_⟩
    cases Assembly.assembled (expandAfresh first.declared.fragments []) packet.body.lines with
    | error failure => simp [Except.map]
    | ok set => simp [Except.map]

/-- Another session with the lines of the small one: the packet comes
first, under another header, compiling fails twice in between, and there
is a fragment that cannot be compiled at all. -/
def otherSession : List Operation :=
  [.registerPacket "Go" "70" ⟨8, "Packet[Go]:70"⟩,
   .addLine (.packet "70") ⟨9, "id:$4"⟩,
   .addLine (.packet "70") ⟨10, "+ SubCate"⟩,
   .addLine (.packet "70") ⟨11, "time:$1"⟩,
   .addLine (.packet "70") ⟨12, "SubCate[walk]:01"⟩,
   .addLine (.packet "70") ⟨13, "+ Fragment[Path]"⟩,
   .addLine (.packet "70") ⟨14, "speed:$1"⟩,
   .addLine (.packet "70") ⟨15, "SubCate[rest]:02"⟩,
   .compilePacket "70",
   .registerFragment "Broken" ⟨20, "Fragment[Broken]"⟩,
   .addLine (.fragment "Broken") ⟨21, "+ Fragment[Broken]"⟩,
   .registerFragment "Path" ⟨4, "Fragment[Path]"⟩,
   .addLine (.fragment "Path") ⟨7, "- REP"⟩,
   .addLine (.fragment "Path") ⟨6, "+ Fragment[Point]"⟩,
   .addLine (.fragment "Path") ⟨5, "+ REP"⟩,
   .compileAll,
   .registerFragment "Point" ⟨1, "Fragment[Point]"⟩,
   .addLine (.fragment "Point") ⟨2, "x:$2"⟩]

/-- The workspace that the other session leads to. -/
def otherSample : Workspace :=
  otherSession.foldl Workspace.perform {}

theorem sealed_otherSample : Reached Operation.Sealed otherSample := by
  have isSealed : Session Operation.Sealed {} otherSession := by decide +kernel
  exact Reached.start.session isSealed

/-- The packet of the two sessions comes to the same signatures. -/
theorem compile_local_samples :
    sample.packetSignatures "6f" = otherSample.packetSignatures "70" ∧
    sample.packetSignatures "6f" ≠ .ok none ∧
    (sample.compileFragment "Path" ⟨13, "+ Fragment[Path]"⟩).1
      = (otherSample.compileFragment "Path" ⟨13, "+ Fragment[Path]"⟩).1 ∧
    sample.compileAll.1 = .ok () ∧ otherSample.compileAll.1 ≠ .ok () := by
  have closed : ∀ outer ∈ ["Path", "Point"], ∀ fragment ∈ sample.declared.fragments.get? outer,
      ∀ inner ∈ fragment.body.references, inner ∈ ["Path", "Point"] := by decide +kernel
  have same : ∀ name ∈ ["Path", "Point"],
      SameLines sample.declared.fragments otherSample.declared.fragments name := by
    decide +kernel
  have listed : ∀ name ∈ samplePacket.body.references, name ∈ ["Path", "Point"] := by
    decide +kernel
  obtain ⟨fragments, packets, _⟩ := compile_local sealed_sample sealed_otherSample
  obtain ⟨equal, found⟩ := packets "6f" samplePacket (by decide +kernel) "70"
    { samplePacket with description := "Go", header := "70" } (by decide +kernel) rfl
    fun inner ⟨first, mem, way⟩ => same inner (mem_of_reached closed way (listed first mem))
  refine ⟨equal, found, ?_, by decide +kernel, by decide +kernel⟩
  exact fragments "Path" ⟨13, "+ Fragment[Path]"⟩ fun inner way =>
    same inner (mem_of_reached closed way (by decide))

end Workspace

end PacketLayout
