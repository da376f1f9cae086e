/-
PacketLayout.Proofs.FirstFailure — compiling everything stops at the first
failure.

Everything is compiled in a fixed order, all fragments and then all
packets. A fragment may have been compiled before its turn, because
another one refers to it, and what failed may have left some of that
behind. Still each declaration comes to what it comes to alone, so the
first that fails alone is where the work stops.

`Frontier` says how far the work has come: what has been done is kept with
its own outcome, and nothing else is kept than what has been begun and
what can be reached from it.

* `compileOwner_ends`: one declaration.
* `compileInOrder_stops`: the run up to its end or its failure.
* `Workspace.compileAll_stops`: what compiling everything comes to and
  leaves, after a session that has only declared.
-/
import PacketLayout.Proofs.Completeness
import PacketLayout.Proofs.Expansion.Footprint
import PacketLayout.Proofs.Growing
import PacketLayout.Proofs.Locality

namespace PacketLayout

open Relation Text

/-! ## Declarations in order -/

/-- What a declaration has been compiled to. -/
inductive Product where
  | expansion (expansion : Expansion)
  | signatures (set : SignatureSet)
  deriving DecidableEq

/-- What is kept of a declaration. -/
def Results.product? (results : Results) : Owner → Option Product
  | .fragment name => (results.expansions.get? name).map .expansion
  | .packet header => (results.packets.get? header).map .signatures

theorem Results.product?_eq_none_iff {results : Results} {owner : Owner} :
    results.product? owner = none ↔ owner.Open results := by
  cases owner with
  | fragment name => exact Option.map_eq_none_iff
  | packet header => exact Option.map_eq_none_iff

/-- All declarations in the order in which they are compiled. -/
def Declarations.owners (declared : Declarations) : List Owner :=
  declared.fragments.keys.map .fragment ++ declared.packets.keys.map .packet

/-- The names that can be reached from a declaration. -/
def Owner.Reaches (declared : Declarations) : Owner → String → Prop
  | .fragment first, name => ReflTransGen (Refers declared.fragments) first name
  | .packet header, name => ∃ packet, declared.packets.get? header = some packet ∧
    packet.body.Reaches declared.fragments name

/-- What compiling a declaration comes to. -/
def Owner.outcome (declared : Declarations) (results : Results) : Owner → Except Failure Product
  | .fragment name => ((declared.fragment name ⟨0, ""⟩).bind
      (declaredOutcome declared results)).map .expansion
  | .packet header => (packetOutcome declared results header).map .signatures

/-- Compiles a declaration. -/
def compileOwner (declared : Declarations) : Owner → Job Results Unit
  | .fragment name => do
    let fragment ← Job.ofExcept (declared.fragment name ⟨0, ""⟩)
    compileDeclared declared fragment
  | .packet header => compilePacket declared header

namespace Declarations

variable {declared : Declarations}

/-- The headers of the packets are in capitals. -/
def Capital (declared : Declarations) : Prop :=
  ∀ header ∈ declared.packets.keys, upper header = header

/-- The declarations stand under their own names, packets under headers in
capitals. -/
structure Regular (declared : Declarations) : Prop where
  named : declared.Named
  capital : declared.Capital

theorem nodup_owners (declared : Declarations) : declared.owners.Nodup := by
  refine List.nodup_append.mpr ⟨declared.fragments.nodup.map fun _ _ same => ?_,
    declared.packets.nodup.map fun _ _ same => ?_, ?_⟩
  · cases same
    rfl
  · cases same
    rfl
  · intro one left two right same
    obtain ⟨name, _, rfl⟩ := List.mem_map.mp left
    obtain ⟨header, _, rfl⟩ := List.mem_map.mp right
    cases same

theorem mem_owners_fragment {name : String} (mem : .fragment name ∈ declared.owners) :
    ∃ fragment, declared.fragments.get? name = some fragment := by
  rcases List.mem_append.mp mem with mem | mem
  · obtain ⟨_, key, same⟩ := List.mem_map.mp mem
    cases same
    exact Option.isSome_iff_exists.mp (OrderedMap.contains_iff.mpr key)
  · obtain ⟨_, _, same⟩ := List.mem_map.mp mem
    cases same

theorem mem_owners_packet {header : String} (mem : .packet header ∈ declared.owners) :
    header ∈ declared.packets.keys ∧
      ∃ packet, declared.packets.get? header = some packet := by
  rcases List.mem_append.mp mem with mem | mem
  · obtain ⟨_, _, same⟩ := List.mem_map.mp mem
    cases same
  · obtain ⟨_, key, same⟩ := List.mem_map.mp mem
    cases same
    exact ⟨key, Option.isSome_iff_exists.mp (OrderedMap.contains_iff.mpr key)⟩

/-- No packet comes before a fragment. -/
theorem fragments_first {before rest : List Owner} {owner : Owner} {name : String}
    (split : declared.owners = before ++ owner :: rest) (later : .fragment name ∈ rest) :
    ∀ earlier ∈ before ++ [owner], ∃ first, earlier = .fragment first := by
  have ordered : declared.owners.Pairwise fun earlier later =>
      (∃ name, later = .fragment name) → ∃ name, earlier = .fragment name := by
    refine List.pairwise_append.mpr ⟨?_, ?_, ?_⟩
    · refine List.pairwise_map.mpr (List.pairwise_of_forall fun first _ _ => ⟨first, rfl⟩)
    · refine List.pairwise_map.mpr (List.pairwise_of_forall fun _ _ fragment => ?_)
      obtain ⟨_, same⟩ := fragment
      cases same
    · intro earlier mem _ _ _
      obtain ⟨first, _, rfl⟩ := List.mem_map.mp mem
      exact ⟨first, rfl⟩
  rw [split, ← List.singleton_append, ← List.append_assoc] at ordered
  exact fun earlier mem => (List.pairwise_append.mp ordered).2.2 earlier mem _ later ⟨name, rfl⟩

theorem fragment_of_get? {name : String} {fragment : Fragment} {site : Site}
    (there : declared.fragments.get? name = some fragment) :
    declared.fragment name site = .ok fragment := by
  rw [Declarations.fragment, there]

end Declarations

/-- Jobs that are the same item by item are the same one after another. -/
theorem forM_map_eq {σ α β γ : Type} {job : β → Job σ Unit} {other : γ → Job σ Unit}
    {first : α → β} {second : α → γ} {items : List α}
    (same : ∀ item ∈ items, job (first item) = other (second item)) :
    (items.map first).forM job = (items.map second).forM other := by
  induction items with
  | nil => rfl
  | cons item rest ih =>
    rw [List.map_cons, List.map_cons, List.forM, List.forM, same item (by simp),
      ih fun other mem => same other (by simp [mem])]

/-- Compiling everything is compiling each declaration in order. -/
theorem compileInOrder_eq (declared : Declarations) :
    compileInOrder declared = declared.owners.forM (compileOwner declared) := by
  have fragments : declared.fragments.values.forM (compileDeclared declared)
      = (declared.fragments.keys.map Owner.fragment).forM (compileOwner declared) := by
    rw [OrderedMap.keys, List.map_map]
    refine forM_map_eq fun entry mem => ?_
    rw [Function.comp_apply, compileOwner,
      Declarations.fragment_of_get? (OrderedMap.get?_of_mem_entries mem)]
    rfl
  have packets : declared.packets.keys.forM (compilePacket declared)
      = (declared.packets.keys.map Owner.packet).forM (compileOwner declared) := by
    rw [OrderedMap.keys, List.map_map]
    exact forM_map_eq fun entry _ => rfl
  rw [compileInOrder, fragments, packets, Declarations.owners]
  exact (List.forM_append ..).symm

/-! ## One declaration -/

/-- How far the work has come from `start`: it has done some declarations
and begun some. -/
structure Frontier (declared : Declarations) (start : Results) (done begun : List Owner)
    (after : Results) : Prop where
  advance : Advance declared start after
  /-- What has been done is kept, and is its own outcome. -/
  kept : ∀ owner ∈ done, ∃ made, owner.outcome declared start = .ok made ∧
    after.product? owner = some made
  packets : ∀ header, start.packets.get? header = none → after.packets.get? header ≠ none →
    .packet header ∈ begun
  /-- The fragments that are kept can be reached from what was begun. -/
  fragments : ∀ name, start.expansions.get? name = none → after.expansions.get? name ≠ none →
    ∃ owner ∈ begun, owner.Reaches declared name

section Steps

variable {declared : Declarations} {start before middle after : Results}

/-- Outcomes do not change on the way. -/
theorem Advance.ownerOutcome_eq (advance : Advance declared before after) (owner : Owner) :
    owner.outcome declared after = owner.outcome declared before := by
  cases owner with
  | fragment name =>
    unfold Owner.outcome declaredOutcome
    rw [advance.expandGiven_eq]
  | packet header => rw [Owner.outcome, Owner.outcome, advance.packetOutcome_eq]

/-- What is kept stays. -/
theorem Advance.product?_mono (advance : Advance declared before after) {owner : Owner}
    {made : Product} (kept : before.product? owner = some made) :
    after.product? owner = some made := by
  cases owner with
  | fragment name =>
    obtain ⟨expansion, there, rfl⟩ := Option.map_eq_some_iff.mp kept
    rw [Results.product?, advance.grown.get?_mono there]
    rfl
  | packet header =>
    obtain ⟨set, there, rfl⟩ := Option.map_eq_some_iff.mp kept
    rw [Results.product?, advance.packets_mono there]
    rfl

/-- What is kept of a declaration is its outcome. -/
theorem outcome_of_product? (regular : declared.Regular) {owner : Owner}
    (mem : owner ∈ declared.owners) {results : Results} {made : Product}
    (kept : results.product? owner = some made) : owner.outcome declared results = .ok made := by
  cases owner with
  | fragment name =>
    obtain ⟨expansion, there, rfl⟩ := Option.map_eq_some_iff.mp kept
    obtain ⟨fragment, found⟩ := Declarations.mem_owners_fragment mem
    have same : name = fragment.name :=
      regular.named.fragments _ (OrderedMap.mem_entries_of_get? found)
    subst same
    rw [Owner.outcome, Declarations.fragment_of_get? found]
    simp only [Except.bind, declaredOutcome, expandGiven_eq, found, there]
    rfl
  | packet header =>
    obtain ⟨set, there, rfl⟩ := Option.map_eq_some_iff.mp kept
    obtain ⟨key, packet, found⟩ := Declarations.mem_owners_packet mem
    simp only [Owner.outcome, packetOutcome, regular.capital header key, found, there]
    rfl

theorem Frontier.refl : Frontier declared start [] [] start where
  advance := .refl
  kept _ mem := nomatch mem
  packets _ fresh kept := absurd fresh kept
  fragments _ fresh kept := absurd fresh kept

/-- A declaration more is begun. -/
theorem Frontier.trans {done begun : List Owner} {owner : Owner}
    (first : Frontier declared start done begun middle)
    (next : Frontier declared middle [] [owner] after) :
    Frontier declared start done (begun ++ [owner]) after := by
  refine ⟨first.advance.trans next.advance, fun earlier mem => ?_, fun header fresh kept => ?_,
    fun name fresh kept => ?_⟩
  · obtain ⟨made, outcome, there⟩ := first.kept earlier mem
    exact ⟨made, outcome, next.advance.product?_mono there⟩
  · by_cases between : middle.packets.get? header = none
    · exact List.mem_append_right _ (next.packets header between kept)
    · exact List.mem_append_left _ (first.packets header fresh between)
  · by_cases between : middle.expansions.get? name = none
    · obtain ⟨last, mem, way⟩ := next.fragments name between kept
      exact ⟨last, List.mem_append_right _ mem, way⟩
    · obtain ⟨earlier, mem, way⟩ := first.fragments name fresh between
      exact ⟨earlier, List.mem_append_left _ mem, way⟩

/-- What has been begun last is done. -/
theorem Frontier.done {done begun : List Owner} {owner : Owner} {made : Product}
    (frontier : Frontier declared start done begun after)
    (outcome : owner.outcome declared start = .ok made)
    (kept : after.product? owner = some made) :
    Frontier declared start (done ++ [owner]) begun after := by
  refine { frontier with kept := fun earlier mem => ?_ }
  rcases List.mem_append.mp mem with mem | mem
  · exact frontier.kept earlier mem
  · rw [List.mem_singleton.mp mem]
    exact ⟨made, outcome, kept⟩

/-- Compiling a packet leaves the signatures of the others. -/
theorem compilePacket_others {header : String} (capital : upper header = header)
    (results : Results) :
    (compilePacket declared header).Ends results fun _ after _ =>
      ∀ other, other ≠ header → after.packets.get? other = results.packets.get? other := by
  cases found : declared.packets.get? (upper header) with
  | none =>
    unfold compilePacket
    simp only [found]
    exact fun _ _ => rfl
  | some packet =>
    cases known : results.packets.get? (upper header) with
    | some set =>
      have compiled : results.packets.contains (upper header) = true := by
        simp [OrderedMap.contains, known]
      unfold compilePacket
      simp only [found]
      rw [Job.ends_bind, Job.ends_get]
      simp only [compiled, if_true]
      exact fun _ _ => rfl
    | none =>
      refine (compileFresh_ends found known).imp fun result after _ ends other different => ?_
      obtain ⟨_, ends⟩ := ends
      cases assembled : Assembly.assembled
          (expandGiven results.expansions declared.fragments []) packet.body.lines with
      | error failure =>
        rw [assembled] at ends
        rw [ends.2]
      | ok set =>
        rw [assembled] at ends
        rw [ends.2, capital, OrderedMap.get?_insert, if_neg different]

/-- What is known of compiling one declaration. -/
structure OwnerEnds (declared : Declarations) (owner : Owner) (before : Results)
    (result : Except Failure Unit) (after : Results) : Prop where
  result : result = (owner.outcome declared before).map fun _ => ()
  frontier : Frontier declared before [] [owner] after
  kept : ∀ made, owner.outcome declared before = .ok made → after.product? owner = some made

/-- If something is kept of a declaration that succeeds, it is its
outcome. -/
theorem product?_of_outcome (regular : declared.Regular) {owner : Owner}
    (mem : owner ∈ declared.owners) (advance : Advance declared before after)
    {made other : Product} (outcome : owner.outcome declared before = .ok made)
    (kept : after.product? owner = some other) : after.product? owner = some made := by
  have same := outcome_of_product? regular mem kept
  rw [advance.ownerOutcome_eq, outcome] at same
  cases same
  exact kept

theorem compileOwner_fragment (regular : declared.Regular) {name : String}
    (mem : .fragment name ∈ declared.owners) (results : Results) :
    (compileOwner declared (.fragment name)).Ends results fun result after _ =>
      OwnerEnds declared (.fragment name) results result after := by
  obtain ⟨fragment, found⟩ := Declarations.mem_owners_fragment mem
  have named : name = fragment.name :=
    regular.named.fragments _ (OrderedMap.mem_entries_of_get? found)
  have here : (Owner.fragment name).outcome declared results
      = (declaredOutcome declared results fragment).map .expansion := by
    rw [Owner.outcome, Declarations.fragment_of_get? found]
    rfl
  have same : compileOwner declared (.fragment name) = compileDeclared declared fragment := by
    rw [compileOwner, Declarations.fragment_of_get? found]
    rfl
  have within : (compileDeclared declared fragment).Ends results fun _ after entries =>
      (keepsOnly (Owner.Reaches declared (.fragment name))).onExpansions results entries after := by
    refine compileDeclared_has (keepsOnly_footprint _) (fun inner way => ?_) results
    rw [← named] at way
    exact way
  have packets : (compileDeclared declared fragment).Ends results fun _ after _ =>
      after.packets = results.packets := by
    unfold compileDeclared
    rw [Job.ends_bind]
    refine (compileFragment_ends declared fragment.name _ results).imp fun result after _ h => ?_
    cases result with
    | error failure => exact h.2.2
    | ok expansion => exact h.2.2
  rw [same]
  refine ((compileDeclared_ends declared fragment results).and
    ((compileDeclared_keeps declared fragment results).and (within.and packets))).imp
    fun result after entries known => ?_
  obtain ⟨⟨rfl, advance⟩, keeps, within, packets⟩ := known
  refine ⟨?_, ⟨advance, fun _ mem => (nomatch mem), fun header fresh kept => ?_,
    fun inner fresh kept => ?_⟩, fun made outcome => ?_⟩
  · rw [here]
    cases declaredOutcome declared results fragment <;> rfl
  · rw [packets] at kept
    exact absurd fresh kept
  · exact ⟨_, List.mem_singleton_self _, within inner fresh kept⟩
  · have succeeds : (declaredOutcome declared results fragment).map (fun _ => ()) = .ok () := by
      rw [here] at outcome
      cases came : declaredOutcome declared results fragment with
      | error failure =>
        rw [came] at outcome
        cases outcome
      | ok expansion => rfl
    obtain ⟨expansion, kept⟩ := keeps succeeds
    have held : after.product? (.fragment name) = some (.expansion expansion) := by
      rw [Results.product?, named, kept]
      rfl
    exact product?_of_outcome regular mem advance outcome held

theorem compileOwner_packet (regular : declared.Regular) {header : String}
    (mem : .packet header ∈ declared.owners) (results : Results) :
    (compileOwner declared (.packet header)).Ends results fun result after _ =>
      OwnerEnds declared (.packet header) results result after := by
  obtain ⟨key, packet, found⟩ := Declarations.mem_owners_packet mem
  have capital := regular.capital header key
  have within : (compilePacket declared header).Ends results fun _ after entries =>
      (keepsOnly (Owner.Reaches declared (.packet header))).onExpansions results entries after := by
    refine compilePacket_has (keepsOnly_footprint _) (fun other there inner way => ?_) results
    rw [capital] at there
    exact ⟨other, there, way⟩
  refine ((compilePacket_ends declared header results).and
    (within.and (compilePacket_others capital results))).imp fun result after entries known => ?_
  obtain ⟨⟨rfl, advance, keeps, _⟩, within, others⟩ := known
  refine ⟨?_, ⟨advance, fun _ mem => (nomatch mem), fun other fresh kept => ?_,
    fun inner fresh kept => ?_⟩, fun made outcome => ?_⟩
  · rw [Owner.outcome]
    cases packetOutcome declared results header <;> rfl
  · by_cases same : other = header
    · rw [same]
      exact List.mem_singleton_self _
    · rw [others other same] at kept
      exact absurd fresh kept
  · exact ⟨_, List.mem_singleton_self _, within inner fresh kept⟩
  · rw [Owner.outcome] at outcome
    cases came : packetOutcome declared results header with
    | error failure =>
      rw [came] at outcome
      cases outcome
    | ok set =>
      rw [came] at outcome
      cases outcome
      rw [Results.product?, ← capital, keeps set came]
      rfl

/-- Compiling a declaration comes to its outcome and keeps it, and begins
nothing else. -/
theorem compileOwner_ends (regular : declared.Regular) {owner : Owner}
    (mem : owner ∈ declared.owners) (results : Results) :
    (compileOwner declared owner).Ends results fun result after _ =>
      OwnerEnds declared owner results result after := by
  cases owner with
  | fragment name => exact compileOwner_fragment regular mem results
  | packet header => exact compileOwner_packet regular mem results

end Steps

/-! ## The run -/

variable {declared : Declarations} {start : Results}

/-- The work succeeds when all declarations are done; it fails at a
declaration that fails alone, when those before it are done. -/
structure Stops (declared : Declarations) (start : Results) (result : Except Failure Unit)
    (after : Results) : Prop where
  succeeds : result = .ok () → Frontier declared start declared.owners declared.owners after
  fails : ∀ failure, result = .error failure → ∃ done owner rest,
    declared.owners = done ++ owner :: rest ∧ owner.outcome declared start = .error failure ∧
      Frontier declared start done (done ++ [owner]) after

theorem compileInOrder_stops (regular : declared.Regular) (start : Results) :
    (compileInOrder declared).Ends start fun result after _ =>
      Stops declared start result after := by
  rw [compileInOrder_eq]
  refine (Job.ends_forM_along (fun done after => Frontier declared start done done after)
    (fun done owner failure after => owner.outcome declared start = .error failure ∧
      Frontier declared start done (done ++ [owner]) after) ?_ .refl).imp
    fun _ _ _ known => ⟨known.1, known.2⟩
  intro done owner rest middle split here
  have mem : owner ∈ declared.owners := by simp [split]
  refine (compileOwner_ends regular mem middle).imp fun result after _ known => ?_
  obtain ⟨rfl, next, kept⟩ := known
  have further := here.trans next
  rw [here.advance.ownerOutcome_eq] at kept ⊢
  cases outcome : owner.outcome declared start with
  | error failure =>
    refine ⟨fun done => (nomatch done), fun other same => ?_⟩
    cases same
    exact ⟨rfl, further⟩
  | ok made =>
    exact ⟨fun _ => further.done outcome (kept made outcome), fun _ same => nomatch same⟩

/-- To record the failure changes nothing of what is kept. -/
theorem compileAll_ends_stops (regular : declared.Regular) (start : Results) :
    (compileAll declared).Ends start fun result after _ => Stops declared start result after := by
  unfold compileAll
  rw [Job.ends_recordingFailure]
  refine (compileInOrder_stops regular start).imp fun result after _ stops => ?_
  cases result with
  | error failure => exact stops
  | ok _ => exact stops

/-! ## Sessions that only declare -/

/-- The operation declares, and compiles nothing. -/
def Operation.Declares (_ : Workspace) : Operation → Prop
  | .registerFragment .. | .registerPacket .. | .addLine .. | .load _ => True
  | _ => False

instance (workspace : Workspace) (operation : Operation) :
    Decidable (operation.Declares workspace) :=
  match operation with
  | .registerFragment .. | .registerPacket .. | .addLine .. | .load _ => .isTrue trivial
  | .addFragment .. | .addPacket .. | .compileFragment .. | .compilePacket _ | .compileAll
  | .record _ => .isFalse id

namespace Declarations

theorem Capital.addLine {declared after : Declarations} (capital : declared.Capital)
    {owner : Owner} {site : Site} (added : declared.addLine owner site = .ok after) :
    after.Capital := by
  cases owner with
  | fragment name =>
    obtain ⟨_, _, _, _, rfl⟩ := addLine_fragment_ok added
    exact capital
  | packet header =>
    obtain ⟨_, _, there, _, rfl⟩ := addLine_packet_ok added
    intro other mem
    rw [OrderedMap.keys_insert_of_mem _ (OrderedMap.mem_keys_of_get? there)] at mem
    exact capital other mem

theorem Capital.loadKeeps : LoadKeeps Capital fun _ => True where
  addFragment declared name site after capital added := by
    obtain ⟨_, rfl⟩ := addFragment_ok added
    exact ⟨capital, trivial⟩
  addPacket declared description header site after capital added := by
    obtain ⟨_, rfl⟩ := addPacket_ok added
    refine ⟨fun other mem => ?_, trivial⟩
    rcases OrderedMap.mem_keys_insert mem with rfl | old
    · exact upper_upper header
    · exact capital other old
  addLine _ _ _ _ capital _ added := capital.addLine added

end Declarations

namespace Workspace

variable {workspace : Workspace}

/-- A session that only declares has compiled nothing, and declares under
headers in capitals. -/
theorem declares_of_reached (reached : Reached Operation.Declares workspace) :
    workspace.results = {} ∧ workspace.declared.Regular ∧
      Settled workspace.results workspace.declared := by
  have steps : workspace.results = {} ∧ workspace.declared.Capital ∧
      Reached Operation.Sealed workspace := by
    induction reached with
    | start => exact ⟨rfl, fun _ mem => (nomatch mem), .start⟩
    | @perform workspace operation _ declares ih =>
      obtain ⟨empty, capital, isSealed⟩ := ih
      have kept : operation.Keeps Declarations.Capital workspace.declared := by
        cases operation with
        | addLine owner site => exact fun _ added => capital.addLine added
        | addPacket packet raw => exact absurd declares id
        | addFragment fragment raw => exact absurd declares id
        | _ => trivial
      refine ⟨?_, perform_keeps Declarations.Capital.loadKeeps capital kept,
        isSealed.perform ?_⟩
      · cases operation with
        | registerFragment name site => exact empty
        | registerPacket description header site => exact empty
        | addLine owner site => exact empty
        | load source => exact empty
        | _ => exact absurd declares id
      · cases operation with
        | addLine owner site =>
          intro after _
          rw [empty]
          cases owner <;> rfl
        | addFragment fragment raw => exact absurd declares id
        | _ => trivial
  exact ⟨steps.1, ⟨named_of_reached reached, steps.2.1⟩, settled_of_reached steps.2.2⟩

/-- What compiling one declaration comes to in the workspace as it is: the
expansion that is answered, or the signatures that are kept. A fragment is
referred to at `site`. -/
def intrinsic (workspace : Workspace) (site : Site) : Owner → Except Failure (Option Product)
  | .fragment name => (workspace.compileFragment name site).1.map fun expansion =>
      some (.expansion expansion)
  | .packet header => (workspace.packetSignatures header).map (Option.map .signatures)

theorem intrinsic_eq (regular : workspace.declared.Regular)
    (settled : Settled workspace.results workspace.declared) (site : Site) {owner : Owner}
    (mem : owner ∈ workspace.declared.owners) :
    workspace.intrinsic site owner
      = (owner.outcome workspace.declared workspace.results).map some := by
  cases owner with
  | fragment name =>
    obtain ⟨fragment, found⟩ := Declarations.mem_owners_fragment mem
    have named : name = fragment.name :=
      regular.named.fragments _ (OrderedMap.mem_entries_of_get? found)
    -- a declared fragment is not to blame on the place that refers to it
    have anywhere : ∀ place, expandAfresh workspace.declared.fragments [] name place
        = Expansion.ofLines (expandAfresh workspace.declared.fragments ([] ++ [name]))
            fragment.body.lines := by
      intro place
      simp only [expandAfresh_eq _ [], found, List.not_mem_nil, if_false]
    rw [intrinsic, compileFragment_settled settled, Owner.outcome,
      Declarations.fragment_of_get? found]
    simp only [Except.bind, declaredOutcome]
    rw [settled.coherent.expandGiven_eq, ← named, anywhere, anywhere]
    cases Expansion.ofLines (expandAfresh workspace.declared.fragments ([] ++ [name]))
      fragment.body.lines <;> rfl
  | packet header =>
    rw [intrinsic, compilePacket_settled settled, Owner.outcome, settled.packetOutcome_eq]
    cases packetAfresh workspace.declared header <;> rfl

/-- After a session that has only declared, compiling everything succeeds
exactly if every declaration can be compiled on its own. If not, it fails
as the first that cannot, fragments before packets and each in the order
of their declarations. Then all before that one are kept as they come out
on their own; it is not, and no packet behind it. A fragment behind it is
kept only if it can be reached from one up to it. -/
theorem compileAll_stops (reached : Reached Operation.Declares workspace) (site : Site) :
    (workspace.compileAll.1 = .ok () ↔
      ∀ owner ∈ workspace.declared.owners, ∃ made, workspace.intrinsic site owner = .ok made) ∧
    ∀ failure, workspace.compileAll.1 = .error failure →
      ∃ before owner rest, workspace.declared.owners = before ++ owner :: rest ∧
        workspace.intrinsic site owner = .error failure ∧
        (∀ earlier ∈ before, ∃ made, workspace.intrinsic site earlier = .ok (some made) ∧
          workspace.compileAll.2.results.product? earlier = some made) ∧
        workspace.compileAll.2.results.product? owner = none ∧
        (∀ header, .packet header ∈ rest →
          workspace.compileAll.2.results.product? (.packet header) = none) ∧
        ∀ name, .fragment name ∈ rest →
          workspace.compileAll.2.results.product? (.fragment name) ≠ none →
          ∃ first, .fragment first ∈ before ++ [owner] ∧
            ReflTransGen (Refers workspace.declared.fragments) first name := by
  obtain ⟨empty, regular, settled⟩ := declares_of_reached reached
  have alone : ∀ {owner}, owner ∈ workspace.declared.owners →
      workspace.intrinsic site owner
        = (owner.outcome workspace.declared workspace.results).map some :=
    fun mem => intrinsic_eq regular settled site mem
  obtain ⟨succeeds, fails⟩ : Stops workspace.declared workspace.results workspace.compileAll.1
      workspace.compileAll.2.results := compileAll_ends_stops regular workspace.results
  refine ⟨⟨fun done owner mem => ?_, fun each => ?_⟩, fun failure failed => ?_⟩
  · obtain ⟨made, outcome, _⟩ := (succeeds done).kept owner mem
    exact ⟨some made, by rw [alone mem, outcome]; rfl⟩
  · cases result : workspace.compileAll.1 with
    | ok _ => rfl
    | error failure =>
      obtain ⟨before, owner, rest, split, outcome, _⟩ := fails failure result
      have mem : owner ∈ workspace.declared.owners := by simp [split]
      obtain ⟨made, answer⟩ := each owner mem
      rw [alone mem, outcome] at answer
      cases answer
  · obtain ⟨before, owner, rest, split, outcome, frontier⟩ := fails failure failed
    have mem : ∀ other, other ∈ before ++ owner :: rest → other ∈ workspace.declared.owners :=
      fun other => split ▸ id
    have distinct := workspace.declared.nodup_owners
    rw [split, ← List.singleton_append, ← List.append_assoc] at distinct
    refine ⟨before, owner, rest, split, ?_, fun earlier there => ?_, ?_, fun header there => ?_,
      fun name there kept => ?_⟩
    · rw [alone (mem owner (by simp)), outcome]
      rfl
    · obtain ⟨made, came, kept⟩ := frontier.kept earlier there
      exact ⟨made, by rw [alone (mem earlier (by simp [there])), came]; rfl, kept⟩
    · cases kept : workspace.compileAll.2.results.product? owner with
      | none => rfl
      | some made =>
        have came := outcome_of_product? regular (mem owner (by simp)) kept
        rw [frontier.advance.ownerOutcome_eq, outcome] at came
        cases came
    · refine Results.product?_eq_none_iff.mpr (Classical.byContradiction fun kept => ?_)
      have begun := frontier.packets header (by rw [empty]; rfl) kept
      exact (List.nodup_append.mp distinct).2.2 _ begun _ there rfl
    · have unkept := mt Results.product?_eq_none_iff.mpr kept
      obtain ⟨earlier, begun, way⟩ := frontier.fragments name (by rw [empty]; rfl) unkept
      obtain ⟨first, rfl⟩ := Declarations.fragments_first split there earlier begun
      exact ⟨first, begun, way⟩

/-- A fragment that refers to another one behind it and then fails. -/
def stopSession : List Operation :=
  [.load ("<parser>\nFragment[A]\nx:$1\nFragment[B]\n+ Fragment[C]\n+ SubCate\nFragment[C]\ny:$2\n"
    ++ "Fragment[D]\nz:$4\nPacket[P]:01\n+ Fragment[A]\n</parser>\n"),
   .registerPacket "Q" "0a" ⟨14, "Packet[Q]:0a"⟩,
   .addLine (.packet "0A") ⟨15, "w:$1"⟩]

/-- The workspace with the fragment that fails. -/
def stopSample : Workspace :=
  stopSession.foldl perform {}

/-- The work stops at the second fragment. The third one is kept, since the
second refers to it, and the fourth one and the packets are not. -/
theorem compileAll_stops_sample :
    stopSample.compileAll.1
      = .error ((Cause.invalidCode .fragment).atSite ⟨6, "+ SubCate"⟩) ∧
    stopSample.compileAll.2.results.product? (.fragment "C")
      = some (.expansion ⟨[.size 2], [⟨"y", none, none, none⟩]⟩) ∧
    stopSample.compileAll.2.results.product? (.fragment "D") = none ∧
    ∃ before owner rest, stopSample.declared.owners = before ++ owner :: rest ∧
      stopSample.intrinsic ⟨20, "+ Fragment[B]"⟩ owner
        = .error ((Cause.invalidCode .fragment).atSite ⟨6, "+ SubCate"⟩) ∧
      stopSample.compileAll.2.results.product? owner = none ∧
      ∀ header, .packet header ∈ rest →
        stopSample.compileAll.2.results.product? (.packet header) = none := by
  have declares : Session Operation.Declares {} stopSession := by decide +kernel
  have failed : stopSample.compileAll.1
      = .error ((Cause.invalidCode .fragment).atSite ⟨6, "+ SubCate"⟩) := by decide +kernel
  obtain ⟨_, stops⟩ :=
    compileAll_stops (Reached.start.session declares) ⟨20, "+ Fragment[B]"⟩
  obtain ⟨before, owner, rest, split, alone, _, unkept, packets, _⟩ := stops _ failed
  exact ⟨failed, by decide +kernel, by decide +kernel, before, owner, rest, split, alone, unkept,
    packets⟩

end Workspace

end PacketLayout
