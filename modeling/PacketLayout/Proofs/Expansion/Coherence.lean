/-
PacketLayout.Proofs.Expansion.Coherence — what has been compiled agrees
with what is declared.

A session is orderly if it never adds a line to a fragment that has been
compiled, and brings in no fragment that someone else is building. Then
the kept expansions stay those that the declarations give, whatever is
declared, loaded and compiled in between, and in whatever order.

* `coherent_of_reached`: the kept expansions come from nothing by
  `Grown`, in every workspace of an orderly session.
* `compileFragment_eq_expandAfresh`: compiling a fragment comes to what
  expansion afresh comes to.
-/
import PacketLayout.Proofs.Session

namespace PacketLayout

/-! ## Expansions that agree with the declarations -/

namespace Grown

variable {fragments others : OrderedMap Fragment} {known : Expansions}

/-- Only declared fragments are kept. -/
theorem declared_of_kept (grown : Grown fragments ∅ known) {name : String}
    {expansion : Expansion} (kept : known.get? name = some expansion) :
    ∃ fragment, fragments.get? name = some fragment := by
  induction grown with
  | refl => cases kept
  | @keep known newest fragment _ _ _ declared _ _ ih =>
    rw [OrderedMap.get?_insert] at kept
    split at kept
    · rename_i same
      exact ⟨fragment, same ▸ declared⟩
    · exact ih kept

/-- The declarations may change around the fragments that are kept. -/
theorem transfer (grown : Grown fragments ∅ known)
    (same : ∀ name fragment, known.get? name ≠ none → fragments.get? name = some fragment →
      others.get? name = some fragment) : Grown others ∅ known := by
  induction grown with
  | refl => exact .refl
  | @keep known newest fragment whole before new declared idle made ih =>
    have still : ∀ name fragment, known.get? name ≠ none →
        fragments.get? name = some fragment → others.get? name = some fragment := by
      intro name fragment old
      refine same name fragment ?_
      rw [OrderedMap.get?_insert]
      split
      · simp
      · exact old
    have found : ∀ place ∈ fragment.body.lines, ∀ name found,
        remembered fragments known name place = .ok found →
        remembered others known name place = .ok found := by
      intro place _ name found h
      obtain ⟨⟨inner, there⟩, kept⟩ := remembered_eq_ok_iff.mp h
      exact remembered_eq_ok_iff.mpr ⟨⟨inner, still name inner (by simp [kept]) there⟩, kept⟩
    exact .keep (ih still) new
      (same newest fragment (by simp [OrderedMap.get?_insert]) declared) idle
      (Expansion.ofLines_imp found made)

end Grown

/-- The kept expansions agree with the declarations, and no fragment is
being built by someone else. -/
structure Coherent (known : Expansions) (declared : Declarations) : Prop where
  idle : ∀ name fragment, declared.fragments.get? name = some fragment →
    fragment.busy = false
  grown : Grown declared.fragments ∅ known

/-- No expansion is kept for what a line is added to. -/
def Owner.Uncompiled (known : Expansions) : Owner → Prop
  | .fragment name => known.get? name = none
  | .packet _ => True

namespace Coherent

variable {known : Expansions} {declared after : Declarations}

theorem addFragment (coherent : Coherent known declared) {fragment : Fragment} {raw : String}
    (idle : fragment.busy = false) (added : declared.addFragment fragment raw = .ok after) :
    Coherent known after ∧ Owner.Uncompiled known (.fragment fragment.name) := by
  obtain ⟨free, rfl⟩ := Declarations.addFragment_ok added
  have unkept : known.get? fragment.name = none := by
    cases kept : known.get? fragment.name with
    | none => rfl
    | some expansion =>
      obtain ⟨other, there⟩ := coherent.grown.declared_of_kept kept
      rw [there] at free
      cases free
  refine ⟨⟨?_, coherent.grown.transfer ?_⟩, unkept⟩
  · intro name other there
    rw [OrderedMap.get?_insert] at there
    split at there
    · cases there
      exact idle
    · exact coherent.idle name other there
  · intro name other kept there
    have different : name ≠ fragment.name := fun same => kept (same ▸ unkept)
    rw [OrderedMap.get?_insert, if_neg different]
    exact there

theorem addPacket (coherent : Coherent known declared) {packet : Packet} {raw : String}
    (added : declared.addPacket packet raw = .ok after) : Coherent known after := by
  obtain ⟨_, rfl⟩ := Declarations.addPacket_ok added
  exact ⟨coherent.idle, coherent.grown⟩

theorem addLine (coherent : Coherent known declared) {owner : Owner} {site : Site}
    (uncompiled : owner.Uncompiled known) (added : declared.addLine owner site = .ok after) :
    Coherent known after := by
  cases owner with
  | packet header =>
    obtain ⟨_, _, _, _, rfl⟩ := Declarations.addLine_packet_ok added
    exact ⟨coherent.idle, coherent.grown⟩
  | fragment name =>
    obtain ⟨fragment, longer, there, _, rfl⟩ := Declarations.addLine_fragment_ok added
    refine ⟨?_, coherent.grown.transfer ?_⟩
    · intro other found same
      rw [OrderedMap.get?_insert] at same
      split at same
      · cases same
        exact coherent.idle name fragment there
      · exact coherent.idle other found same
    · intro other found kept same
      have different : other ≠ name := fun eq => kept (eq ▸ uncompiled)
      rw [OrderedMap.get?_insert, if_neg different]
      exact same

/-- What is kept changes nothing of what a fragment comes to. -/
theorem expandGiven_eq (coherent : Coherent known declared) :
    expandGiven known declared.fragments [] = expandAfresh declared.fragments [] :=
  (coherent.grown.expandGiven_same (by simp)).trans (expandGiven_empty coherent.idle [])

theorem loadKeeps (known : Expansions) :
    LoadKeeps (Coherent known) (Owner.Uncompiled known) where
  addFragment _ _ _ _ coherent added := coherent.addFragment rfl added
  addPacket _ _ _ _ _ coherent added := ⟨coherent.addPacket added, trivial⟩
  addLine _ _ _ _ coherent uncompiled added := coherent.addLine uncompiled added

end Coherent

/-! ## Orderly sessions -/

/-- Nothing is added to a fragment that has been compiled, and no
fragment comes in while someone else is building it. -/
def Operation.Orderly (workspace : Workspace) : Operation → Prop
  | .addLine owner _ => owner.Uncompiled workspace.results.expansions
  | .addFragment fragment _ => fragment.busy = false
  | _ => True

instance (workspace : Workspace) (operation : Operation) :
    Decidable (operation.Orderly workspace) :=
  match operation with
  | .addLine (.fragment name) _ =>
    inferInstanceAs (Decidable (workspace.results.expansions.get? name = none))
  | .addFragment fragment _ => inferInstanceAs (Decidable (fragment.busy = false))
  | .addLine (.packet _) _
  | .registerFragment .. | .registerPacket .. | .addPacket .. | .load _ | .compileFragment ..
  | .compilePacket _ | .compileAll | .record _ => .isTrue trivial

namespace Workspace

theorem Coherent.perform {workspace : Workspace} {operation : Operation}
    (coherent : Coherent workspace.results.expansions workspace.declared)
    (orderly : operation.Orderly workspace) :
    Coherent (workspace.perform operation).results.expansions
      (workspace.perform operation).declared := by
  have may : operation.Keeps (Coherent workspace.results.expansions) workspace.declared := by
    cases operation with
    | addFragment fragment raw => exact fun _ added => (coherent.addFragment orderly added).1
    | addPacket packet raw => exact fun _ added => coherent.addPacket added
    | addLine owner site => exact fun _ added => coherent.addLine orderly added
    | _ => trivial
  have kept := perform_keeps (Coherent.loadKeeps workspace.results.expansions) coherent may
  rcases perform_cases workspace operation with same | ⟨same, advance⟩
  · rw [same]
    exact kept
  · rw [same] at kept ⊢
    exact ⟨kept.idle, kept.grown.trans advance.grown⟩

theorem coherent_of_reached {workspace : Workspace}
    (reached : Reached Operation.Orderly workspace) :
    Coherent workspace.results.expansions workspace.declared := by
  induction reached with
  | start => exact ⟨fun _ _ there => (nomatch there), .refl⟩
  | perform _ orderly ih => exact Coherent.perform ih orderly

/-- After an orderly session, compiling a fragment comes to what
expansion afresh comes to: the same units and fields, or the same
failure at the same place. -/
theorem compileFragment_eq_expandAfresh {workspace : Workspace}
    (reached : Reached Operation.Orderly workspace) (name : String) (site : Site) :
    (workspace.compileFragment name site).1
      = expandAfresh workspace.declared.fragments [] name site := by
  have coherent := coherent_of_reached reached
  have ends : (PacketLayout.compileFragment workspace.declared name site).Ends
      workspace.results fun result _ _ =>
        result = expandAfresh workspace.declared.fragments [] name site := by
    unfold PacketLayout.compileFragment onExpansions
    rw [Job.ends_zoom]
    refine (resolve_ends [] name site workspace.results.expansions coherent.grown
      (by simp)).imp fun result _ _ resolved => ?_
    rw [resolved.found, expandGiven_empty coherent.idle]
    cases expandAfresh workspace.declared.fragments [] name site with
    | error failure => rfl
    | ok expansion => rfl
  exact ends

/-- The small session adds lines only to fragments that have not been
compiled. -/
theorem orderly_sample : Reached Operation.Orderly sample := by
  have orderly : Session Operation.Orderly {} sampleSession := by decide +kernel
  exact Reached.start.session orderly

/-- The path of the small session, although its point was compiled
before. -/
theorem compileFragment_eq_expandAfresh_sample :
    (sample.compileFragment "Path" ⟨16, "+ Fragment[Path]"⟩).1
      = expandAfresh sample.declared.fragments [] "Path" ⟨16, "+ Fragment[Path]"⟩ ∧
    (sample.compileFragment "Path" ⟨16, "+ Fragment[Path]"⟩).1
      = .ok ⟨[.repeatStart, .size 2, .repeatEnd], [⟨"x", none, none, none⟩]⟩ :=
  ⟨compileFragment_eq_expandAfresh orderly_sample "Path" ⟨16, "+ Fragment[Path]"⟩,
    by decide +kernel⟩

end Workspace

end PacketLayout
