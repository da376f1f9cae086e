/-
PacketLayout.Proofs.RegisteredPackets — asking for a packet by its header.

A packet is asked for in either case, and looked up in capitals. Most
ways of declaring a packet put its header in capitals too, and then the
packet that is asked for is the one that is found: it is compiled, or
else one of its own lines is to blame, or a line of a fragment that they
lead to. But a packet may be added as it is, under a header in small
letters. Nothing that is asked for finds it, so it never has signatures.

* `expandGiven_answers`: a failure in a fragment that some lines lead to
  is blamed on these lines, or on lines they lead to.
* `Workspace.compilePacket_capital`: a header in capitals.
* `Workspace.get?_eq_none_of_small`: a header that is not.
* `Workspace.compilePacket_registered`: both, in every workspace that a
  session leads to, and what becomes of all packets together.
-/
import PacketLayout.Proofs.FirstFailure

namespace PacketLayout

open Relation Text

/-! ## The lines that a packet leads to -/

/-- The line is one of the packet, or of a fragment that can be reached
from its lines. -/
def Packet.LeadsTo (fragments : OrderedMap Fragment) (packet : Packet) (site : Site) : Prop :=
  site ∈ packet.body.lines ∨
    ∃ name fragment, packet.body.Reaches fragments name ∧
      fragments.get? name = some fragment ∧ site ∈ fragment.body.lines

section Leading

variable {fragments : OrderedMap Fragment} {packet : Packet} {name : String}

/-- A line of the packet refers to what can be reached. -/
theorem Body.Reaches.direct {body : Body} {site : Site} (mem : site ∈ body.lines)
    (ref : site.form.reference? = some name) : body.Reaches fragments name :=
  ⟨name, mem_references.mpr ⟨site, mem, ref⟩, .refl⟩

/-- So does a line of a fragment that can be reached. -/
theorem Body.Reaches.further {body : Body} {fragment : Fragment}
    (reaches : body.Reaches fragments name) (declared : fragments.get? name = some fragment)
    {site : Site} (mem : site ∈ fragment.body.lines) {inner : String}
    (ref : site.form.reference? = some inner) : body.Reaches fragments inner := by
  obtain ⟨first, listed, way⟩ := reaches
  refine ⟨first, listed, way.tail ⟨fragment, declared, ?_⟩⟩
  exact mem_references.mpr ⟨site, mem, ref⟩

/-- There are finitely many lines that a packet leads to. -/
theorem Packet.exists_code (fragments : OrderedMap Fragment) (packet : Packet) :
    ∃ code : List Site, ∀ site, site ∈ code ↔ packet.LeadsTo fragments site := by
  classical
  let all := packet.body.lines ++ fragments.values.flatMap fun fragment => fragment.body.lines
  have listed : ∀ site, packet.LeadsTo fragments site → site ∈ all := by
    rintro site (own | ⟨name, fragment, _, declared, mem⟩)
    · exact List.mem_append_left _ own
    · have value := OrderedMap.mem_values_of_get? declared
      exact List.mem_append_right _ (List.mem_flatMap.mpr ⟨fragment, value, mem⟩)
  refine ⟨all.filter fun site => packet.LeadsTo fragments site, ?_⟩
  intro site
  rw [List.mem_filter, decide_eq_true_iff]
  constructor
  · rintro ⟨_, leads⟩
    exact leads
  · intro leads
    exact ⟨listed site leads, leads⟩

/-- A reference that the lines of a packet lead to: what fails is blamed
on the reference, or on a line that they lead to. -/
theorem expandGiven_answers {code : List Site}
    (leads : ∀ site, site ∈ code ↔ packet.LeadsTo fragments site) (given : Expansions)
    (path : List String) {site : Site} (here : site ∈ code)
    (reaches : packet.body.Reaches fragments name) :
    Answers code (fun _ => True) (expandGiven given fragments path name site) := by
  induction path using offPath_induction fragments.keys generalizing name site with
  | step path ih =>
    rw [expandGiven_eq]
    cases declared : fragments.get? name with
    | none => exact answers_atSite here rfl
    | some fragment =>
      cases given.get? name with
      | some expansion => exact trivial
      | none =>
        dsimp only
        split
        · exact answers_atSite here rfl
        · rename_i again
          have off : name ∉ path := fun mem => again (.inl mem)
          have known := OrderedMap.mem_keys_of_get? declared
          have inside : ∀ place ∈ fragment.body.lines, place ∈ code := by
            intro place mem
            exact (leads place).mpr (.inr ⟨name, fragment, reaches, declared, mem⟩)
          apply Expansion.ofLines_answers inside
          intro place mem inner ref
          exact ih name known off (inside place mem) (reaches.further declared mem ref)

end Leading

/-! ## Headers in capitals -/

namespace Workspace

variable {workspace : Workspace} {header : String} {packet : Packet}

/-- A packet with a header in capitals is compiled when it is asked for,
or a line that it leads to is to blame. -/
theorem compilePacket_capital (capital : upper header = header)
    (declared : workspace.declared.packets.get? header = some packet) :
    ((workspace.compilePacket header).1 = .ok () →
      ∃ set, (workspace.compilePacket header).2.results.packets.get? header = some set) ∧
    ∀ failure, (workspace.compilePacket header).1 = .error failure →
      packet.LeadsTo workspace.declared.fragments failure.site ∧
        ∀ other, failure.cause ≠ .undeclaredPacket other := by
  obtain ⟨result, _, keeps, _⟩ :=
    compilePacket_ends workspace.declared header workspace.results
  have outcome : (workspace.compilePacket header).1
      = (packetOutcome workspace.declared workspace.results header).map fun _ => () := result
  rw [capital] at keeps
  obtain ⟨code, leads⟩ := packet.exists_code workspace.declared.fragments
  have answers : Answers code (fun _ => True)
      (packetOutcome workspace.declared workspace.results header) := by
    unfold packetOutcome
    rw [capital, declared]
    cases workspace.results.packets.get? header with
    | some set => exact trivial
    | none =>
      have own : ∀ site ∈ packet.body.lines, site ∈ code := by
        intro site mem
        exact (leads site).mpr (.inl mem)
      apply Assembly.assembled_answers own
      intro site mem name ref
      exact expandGiven_answers leads _ [] (own site mem) (.direct mem ref)
  rw [outcome]
  cases found : packetOutcome workspace.declared workspace.results header with
  | ok set =>
    constructor
    · intro _
      exact ⟨set, keeps set found⟩
    · intro failure failed
      cases failed
  | error failure =>
    rw [found] at answers
    constructor
    · intro ended
      cases ended
    · rintro _ ⟨⟩
      refine ⟨(leads _).mp answers.site, ?_⟩
      intro other undeclared
      have known := answers.cause
      rw [undeclared] at known
      cases known

/-! ## Other headers -/

end Workspace

/-- The signatures under a header stay as they are. -/
def LeavesAt (header : String) : Job.Effect Results :=
  fun before _ after => after.packets.get? header = before.packets.get? header

section Small

variable {declared : Declarations} {header : String}

theorem leavesAt_addsUp (header : String) : (LeavesAt header).AddsUp where
  nothing _ := rfl
  both one two := two.trans one

/-- A packet is looked up in capitals, however it is asked for. -/
theorem compilePacket_upper (declared : Declarations) (header : String) :
    compilePacket declared (upper header) = compilePacket declared header := by
  unfold compilePacket
  rw [upper_upper]

/-- No packet that is asked for has a header that is not in capitals. -/
theorem compilePacket_leavesAt (small : upper header ≠ header) (asked : String) :
    (compilePacket declared asked).Has (LeavesAt header) := by
  intro results
  rw [← compilePacket_upper]
  apply compilePacket_others (upper_upper asked) results header
  rintro rfl
  exact small (upper_upper asked)

theorem compileDeclared_leavesAt (fragment : Fragment) :
    (compileDeclared declared fragment).Has (LeavesAt header) := by
  have adds := leavesAt_addsUp header
  unfold compileDeclared
  apply Job.Has.bind adds
  · intro results
    exact congrArg (OrderedMap.get? · header)
      (compileFragment_ends declared fragment.name _ results).2.2
  · intro _
    exact Job.has_pure adds

theorem compileAll_leavesAt (small : upper header ≠ header) (results : Results) :
    (compileAll declared results).state.packets.get? header = results.packets.get? header := by
  have adds := leavesAt_addsUp header
  have inOrder : (compileInOrder declared).Has (LeavesAt header) := by
    apply Job.Has.bind adds
    · exact .forM adds compileDeclared_leavesAt _
    · intro _
      exact .forM adds (compilePacket_leavesAt small) _
  have left : (compileInOrder declared).Ends results fun _ after _ =>
      after.packets.get? header = results.packets.get? header := inOrder results
  have recorded : (compileAll declared).Ends results fun _ after _ =>
      after.packets.get? header = results.packets.get? header := by
    unfold compileAll
    rw [Job.ends_recordingFailure]
    refine left.imp fun result after _ same => ?_
    cases result with
    | ok answer => exact same
    | error failure => exact same
  exact recorded

end Small

/-! ## Registered packets -/

namespace Workspace

variable {workspace : Workspace} {header : String} {packet : Packet}

/-- An operation keeps nothing under a header that is not in capitals. -/
theorem perform_leavesAt (small : upper header ≠ header) (operation : Operation) :
    (workspace.perform operation).results.packets.get? header
      = workspace.results.packets.get? header := by
  cases operation with
  | compileFragment name site =>
    have same := (compileFragment_ends workspace.declared name site workspace.results).2.2
    exact congrArg (OrderedMap.get? · header) same
  | compilePacket asked => exact compilePacket_leavesAt small asked workspace.results
  | compileAll => exact compileAll_leavesAt small workspace.results
  | _ => rfl

/-- Nothing is ever kept under a header that is not in capitals. -/
theorem get?_eq_none_of_small (reached : Reached Operation.Any workspace)
    (small : upper header ≠ header) : workspace.results.packets.get? header = none := by
  induction reached with
  | start => rfl
  | perform _ _ ih => rw [perform_leavesAt small, ih]

/-- Whatever has been done before, and however the packet has been
registered: it stands under its own header. If the header is in capitals,
the packet is compiled when it is asked for, or a line is to blame that it
leads to. If it is not, whoever asks for the packet asks for the one with
that header in capitals, and the packet itself is never compiled. So when
everything has been compiled, exactly the packets with headers in capitals
have been. -/
theorem compilePacket_registered (reached : Reached Operation.Any workspace)
    (declared : workspace.declared.packets.get? header = some packet) :
    packet.header = header ∧
    (upper header = header →
      ((workspace.compilePacket header).1 = .ok () →
        ∃ set, (workspace.compilePacket header).2.results.packets.get? header = some set) ∧
      ∀ failure, (workspace.compilePacket header).1 = .error failure →
        packet.LeadsTo workspace.declared.fragments failure.site ∧
          ∀ other, failure.cause ≠ .undeclaredPacket other) ∧
    (upper header ≠ header →
      workspace.compilePacket header = workspace.compilePacket (upper header) ∧
      ∀ operation, (workspace.perform operation).results.packets.get? header = none) ∧
    (workspace.compileAll.1 = .ok () →
      ((∃ set, workspace.compileAll.2.results.packets.get? header = some set)
        ↔ upper header = header)) := by
  have own := (named_of_reached reached).packets _ (OrderedMap.mem_entries_of_get? declared)
  have missed : upper header ≠ header →
      ∀ operation, (workspace.perform operation).results.packets.get? header = none := by
    intro small operation
    rw [perform_leavesAt small, get?_eq_none_of_small reached small]
  refine ⟨own.symm, ?_, ?_, ?_⟩
  · intro capital
    exact compilePacket_capital capital declared
  · intro small
    refine ⟨?_, missed small⟩
    rw [compilePacket, compilePacket, compilePacket_upper]
  · intro all
    constructor
    · rintro ⟨set, kept⟩
      by_contra small
      cases kept.symm.trans (missed small .compileAll)
    · intro capital
      obtain ⟨_, _, kept⟩ := compileAll_ends workspace.declared workspace.results
      have found := kept all header (OrderedMap.mem_keys_of_get? declared)
      rwa [capital] at found

/-- Two packets, under one header in small letters and in capitals. -/
def twins : Workspace :=
  List.foldl perform {}
    [.addPacket { description := "Small", header := "6f", line := 1 } "Packet[Small]:6f",
     .addLine (.packet "6f") ⟨2, "a:$1"⟩,
     .registerPacket "Capital" "6F" ⟨3, "Packet[Capital]:6F"⟩,
     .addLine (.packet "6F") ⟨4, "b:$2"⟩]

theorem reached_twins : Reached Operation.Any twins :=
  Reached.start.session (session_any {} _)

/-- The packet in capitals is compiled when everything is, and the other
is not. -/
theorem compilePacket_registered_twins :
    (twins.compilePacket "6F").1 = .ok () ∧ twins.compileAll.1 = .ok () ∧
    (∃ set, (twins.compilePacket "6F").2.results.packets.get? "6F" = some set) ∧
    (∃ set, twins.compileAll.2.results.packets.get? "6F" = some set) ∧
    ¬ ∃ set, twins.compileAll.2.results.packets.get? "6f" = some set := by
  have one : (twins.compilePacket "6F").1 = .ok () := by decide +kernel
  have all : twins.compileAll.1 = .ok () := by decide +kernel
  obtain ⟨capital, there⟩ : ∃ packet, twins.declared.packets.get? "6F" = some packet :=
    Option.isSome_iff_exists.mp (by decide +kernel)
  obtain ⟨small, also⟩ : ∃ packet, twins.declared.packets.get? "6f" = some packet :=
    Option.isSome_iff_exists.mp (by decide +kernel)
  obtain ⟨_, acts, _, compiled⟩ := compilePacket_registered reached_twins there
  obtain ⟨_, _, _, never⟩ := compilePacket_registered reached_twins also
  have same : upper "6F" = "6F" := by decide +kernel
  have other : upper "6f" ≠ "6f" := by decide +kernel
  refine ⟨one, all, (acts same).1 one, (compiled all).mpr same, fun kept => ?_⟩
  exact other ((never all).mp kept)

/-- The packet in small letters alone. -/
def loneSmall : Workspace :=
  List.foldl perform {}
    [.addPacket { description := "Small", header := "6f", line := 1 } "Packet[Small]:6f",
     .addLine (.packet "6f") ⟨2, "a:$1"⟩]

/-- It is registered, but is said not to be declared; and beside its twin
it stays uncompiled when it is asked for, and when everything is, though
nothing fails. -/
theorem compilePacket_missed :
    (loneSmall.declared.packets.get? "6f").isSome = true ∧
    (loneSmall.compilePacket "6f").1
      = .error ((Cause.undeclaredPacket "6F").atSite ⟨0, "6F"⟩) ∧
    (twins.declared.packets.get? "6f").isSome = true ∧
    (twins.compilePacket "6f").1 = .ok () ∧
    (twins.compilePacket "6f").2.results.packets.get? "6f" = none ∧
    twins.compileAll.1 = .ok () ∧
    twins.compileAll.2.results.packets.get? "6f" = none := by
  decide +kernel

end Workspace

end PacketLayout
