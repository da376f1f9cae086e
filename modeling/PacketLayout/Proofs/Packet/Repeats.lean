/-
PacketLayout.Proofs.Packet.Repeats — whether the groups of a key are
closed.

The lines of a packet are refused if their marks of repeated groups do
not fit together. The lines of a fragment are not, although their marks
go into the same keys. So a key may start a group that it never stops,
and that is the only way: where the marks of every fragment balance, the
marks of every key do, whichever way they got there.

* `balanced_expandAfresh`: what a fragment comes to.
* `Assembly.Tidy.take`: what every accepted line keeps.
* `Workspace.build_balanced`: the keys of a whole build.
* `Workspace.build_unbalanced`: a build with a group that is never
  stopped.
-/
import PacketLayout.Proofs.Expansion.Plain
import PacketLayout.Proofs.Expansion.References
import PacketLayout.Proofs.OrderedMapEntries
import PacketLayout.Proofs.Packet.AcceptedSteps
import PacketLayout.Proofs.RepeatMarks

namespace PacketLayout

open Relation RepeatMark Text

/-! ## Lines -/

/-- The mark that a line is. -/
def BodyLine.repeatMark? : BodyLine → Option RepeatMark
  | .control .repeatStart => some .start
  | .control .repeatEnd => some .stop
  | _ => none

theorem BodyLine.repeatMark?_of_reference {line : BodyLine} {name : String}
    (ref : line.reference? = some name) : line.repeatMark? = none := by
  rw [BodyLine.eq_of_reference ref]
  rfl

/-- The marks among the lines of a body, in order. -/
def Body.repeatMarks (body : Body) : List RepeatMark :=
  body.lines.filterMap fun site => site.form.repeatMark?

theorem Token.repeatMark?_of_read? {text : List Char} {token : Token}
    (h : Token.read? text = some token) : token.repeatMark? = none := by
  rcases Token.read?_cases h with ⟨listed, -⟩ | ⟨-, rfl⟩
  · have all : ∀ word ∈ Token.words, word.repeatMark? = none := by decide
    exact all token listed
  · rfl

theorem FieldLine.repeatMark?_of_read {text : List Char} {line : FieldLine}
    (h : FieldLine.read text = .ok (some line)) : line.token.repeatMark? = none := by
  rcases FieldLine.token_of_read h with ⟨count, same⟩ | ⟨unit, found⟩
  · rw [same]
    rfl
  · exact Token.repeatMark?_of_read? found

namespace Site

theorem form_eq {site : Site} {line : BodyLine} (form : site.form = line)
    (known : line ≠ .unrecognized) : BodyLine.read site.raw.toList = .ok line := by
  unfold Site.form at form
  split at form
  · rename_i other read
    rw [read, form]
  · exact absurd form.symm known

theorem legible_own (site : Site) : site.form.own.All Token.Legible := by
  unfold Site.form
  split
  · rename_i line read
    exact BodyLine.all_own (fun _ => trivial) (fun _ _ => Token.legible_of_read?) trivial trivial
      read
  · exact Expansion.all_empty

theorem legible_lead {site : Site} {header : BranchHeader} (form : site.form = .branch header) :
    header.lead.All Token.Legible :=
  BranchHeader.all_lead fun _ told =>
    BranchHeader.hex_of_read (BodyLine.read_eq_branch (form_eq form (by simp))) told

/-- A line that is a mark gives the mark, and no other line gives one by
itself. -/
theorem repeatMarks_own (site : Site) :
    site.form.own.signature.repeatMarks = site.form.repeatMark?.toList := by
  cases form : site.form with
  | field line =>
    have read := BodyLine.read_eq_field (form_eq form (by simp))
    simp [BodyLine.own, BodyLine.repeatMark?, Signature.repeatMarks,
      FieldLine.repeatMark?_of_read read]
  | branch header => rfl
  | unrecognized => rfl
  | control line => cases line <;> rfl

end Site

/-! ## Fragments -/

section Fragments

variable {expand : String → Site → Except Failure Expansion} {fragments : OrderedMap Fragment}

theorem Signature.repeatMarks_append (first second : Signature) :
    Signature.repeatMarks (first ++ second) = first.repeatMarks ++ second.repeatMarks := by
  simp [Signature.repeatMarks]

/-- A line of a fragment leaves as many groups open as it says itself, if
what it refers to balances. -/
theorem Expansion.depth?_ofLine {site : Site} {piece : Expansion}
    (balanced : ∀ name found, site.form.reference? = some name →
      expand name site = .ok found → Balanced found.signature.repeatMarks)
    (h : ofLine expand site = .ok piece) (depth : Nat) :
    depth? depth piece.signature.repeatMarks = depth? depth site.form.repeatMark?.toList := by
  obtain ⟨name, ref, _, line⟩ | ⟨_, _, own, units, line⟩ | ⟨_, _, cause, _, line⟩ :=
    ofLine_cases site
  · rw [line] at h
    rw [(balanced name piece ref h).depth?_eq depth, BodyLine.repeatMark?_of_reference ref]
    rfl
  · rw [line] at h
    cases h
    rw [units, site.repeatMarks_own]
  · rw [line] at h
    cases h

theorem Expansion.depth?_ofLines {lines : List Site} {whole : Expansion}
    (balanced : ∀ site ∈ lines, ∀ name found, site.form.reference? = some name →
      expand name site = .ok found → Balanced found.signature.repeatMarks)
    (h : ofLines expand lines = .ok whole) (depth : Nat) :
    depth? depth whole.signature.repeatMarks
      = depth? depth (lines.filterMap fun site => site.form.repeatMark?) := by
  induction lines generalizing whole depth with
  | nil =>
    cases h
    rfl
  | cons site rest ih =>
    obtain ⟨piece, more, first, later, rfl⟩ := ofLines_cons_eq_ok h
    have split : (site :: rest).filterMap (fun site => site.form.repeatMark?)
        = site.form.repeatMark?.toList ++ rest.filterMap fun site => site.form.repeatMark? := by
      cases mark : site.form.repeatMark? <;> simp [mark]
    change depth? depth (Signature.repeatMarks (piece.signature ++ more.signature)) = _
    rw [Signature.repeatMarks_append, depth?_append, split, depth?_append,
      depth?_ofLine (balanced site (by simp)) first]
    exact Option.bind_congr fun behind _ =>
      ih (fun place mem => balanced place (by simp [mem])) later behind

/-- What a fragment comes to balances, if the lines of every fragment do
that can be reached from it. -/
theorem balanced_expandAfresh {name : String}
    (balanced : ∀ reached fragment, ReflTransGen (Refers fragments) name reached →
      fragments.get? reached = some fragment → Balanced fragment.body.repeatMarks)
    (path : List String) {site : Site} {found : Expansion}
    (h : expandAfresh fragments path name site = .ok found) :
    Balanced found.signature.repeatMarks := by
  induction path using offPath_induction fragments.keys generalizing name site found with
  | step path ih =>
    rw [expandAfresh_eq] at h
    cases declared : fragments.get? name with
    | none =>
      rw [declared] at h
      cases h
    | some fragment =>
      rw [declared] at h
      dsimp only at h
      split at h
      · cases h
      · rename_i off
        rw [balanced_iff, Expansion.depth?_ofLines ?_ h 0]
        · exact balanced_iff.mp (balanced name fragment .refl declared)
        · intro place mem inner found ref expanded
          have refers : Refers fragments name inner :=
            ⟨fragment, declared, Body.mem_references.mpr ⟨place, mem, ref⟩⟩
          exact ih name (OrderedMap.mem_keys_of_get? declared) off
            (fun reached fragment way => balanced reached fragment (.head refers way)) expanded

end Fragments

/-! ## Signatures with open groups -/

/-- The signature can be read off its text, and leaves `depth` groups
open. -/
structure Signature.Leaves (depth : Nat) (signature : Signature) : Prop where
  legible : ∀ token ∈ signature, token.Legible
  depth : depth? 0 signature.repeatMarks = some depth

namespace Signature.Leaves

variable {depth behind : Nat} {signature more : Signature}

theorem nil : Leaves 0 [] :=
  ⟨fun _ mem => (nomatch mem), rfl⟩

/-- More units leave open what their marks say. -/
theorem append (leaves : Leaves depth signature) (legible : ∀ token ∈ more, token.Legible)
    (marks : depth? depth more.repeatMarks = some behind) :
    Leaves behind (signature ++ more) where
  legible token mem := by
    rcases List.mem_append.mp mem with old | new
    · exact leaves.legible token old
    · exact legible token new
  depth := by
    rw [repeatMarks_append, depth?_append, leaves.depth]
    exact marks

/-- Units that leave nothing open change nothing. -/
theorem splice (leaves : Leaves depth signature) (closed : Leaves 0 more) :
    Leaves depth (signature ++ more) :=
  leaves.append closed.legible ((balanced_iff.mpr closed.depth).depth?_eq depth)

/-- A closed signature has a text whose marks balance. -/
theorem balanced_render (closed : Leaves 0 signature) : Balanced (keyMarks signature.render) := by
  rw [keyMarks_render closed.legible]
  exact balanced_iff.mpr closed.depth

/-- A closed branch in the place of the placeholder changes nothing. -/
theorem depth?_expand {branch : Signature} (closed : Leaves 0 branch) (main : Signature)
    (depth : Nat) :
    depth? depth (expand main branch).repeatMarks = depth? depth main.repeatMarks := by
  induction main generalizing depth with
  | nil => rfl
  | cons token rest ih =>
    have split : expand (token :: rest) branch
        = (if token = .subCategory then branch else [token]) ++ expand rest branch := rfl
    have marks : repeatMarks (token :: rest) = repeatMarks [token] ++ repeatMarks rest :=
      repeatMarks_append [token] rest
    rw [split, repeatMarks_append, depth?_append, marks, depth?_append]
    have first : depth? depth
        (repeatMarks (if token = .subCategory then branch else [token]))
          = depth? depth (repeatMarks [token]) := by
      split
      · rename_i mark
        rw [mark, (balanced_iff.mpr closed.depth).depth?_eq depth]
        rfl
      · rfl
    rw [first]
    exact Option.bind_congr fun behind _ => ih behind

theorem expand {main branch : Signature} (leaves : Leaves depth main) (closed : Leaves 0 branch) :
    Leaves depth (Signature.expand main branch) where
  legible token mem := by
    obtain ⟨unit, inMain, mem⟩ := List.mem_flatMap.mp mem
    split at mem
    · exact closed.legible token mem
    · obtain rfl : token = unit := by simpa using mem
      exact leaves.legible token inMain
  depth := (closed.depth?_expand main 0).trans leaves.depth

end Signature.Leaves

/-! ## What is collected -/

namespace Assembly

/-- How many groups are open where lines are added. -/
def openGroups (made : Assembly) : Nat :=
  made.openRepeat.toList.length

/-- Groups are open only where lines are added: in the open branch, or in
the main body if there is none. -/
structure Tidy (made : Assembly) : Prop where
  main : Signature.Leaves (if made.current.isNone then made.openGroups else 0) made.main
  current : ∀ branch, made.current = some branch →
    Signature.Leaves made.openGroups branch.signature
  branches : ∀ branch ∈ made.branches, Signature.Leaves 0 branch.signature

namespace Tidy

variable {made later : Assembly}

theorem start : Tidy {} where
  main := .nil
  current _ here := nomatch here
  branches _ mem := nomatch mem

/-- A unit goes where groups may be open. -/
theorem add (tidy : Tidy made) {token : Token} {field : Field} {after : Option Site}
    (grows : ∀ signature, Signature.Leaves made.openGroups signature →
      Signature.Leaves after.toList.length (signature ++ [token])) :
    Tidy { made.add token field with openRepeat := after } := by
  have main := tidy.main
  unfold Assembly.add
  cases opened : made.current with
  | some branch =>
    rw [opened] at main
    refine ⟨main, fun other here => ?_, tidy.branches⟩
    cases here
    exact grows _ (tidy.current branch opened)
  | none =>
    rw [opened] at main
    cases made.placeholder.isSome with
    | true => exact ⟨grows _ main, (fun _ here => nomatch here), tidy.branches⟩
    | false => exact ⟨grows _ main, (fun _ here => nomatch here), tidy.branches⟩

/-- A unit that is no mark leaves open what was open. -/
theorem addOther (tidy : Tidy made) {token : Token} (field : Field) (legible : token.Legible)
    (other : token.repeatMark? = none) : Tidy (made.add token field) := by
  have same : made.add token field
      = { made.add token field with openRepeat := made.openRepeat } := by
    unfold Assembly.add
    cases made.current with
    | some branch => rfl
    | none => cases made.placeholder.isSome <;> rfl
  rw [same]
  refine tidy.add fun signature leaves => leaves.append (by simpa using legible) ?_
  simp [Signature.repeatMarks, other, depth?, openGroups]

/-- Where no group is open, the main body is closed. -/
theorem main_closed (tidy : Tidy made) (closed : made.openRepeat = none) :
    Signature.Leaves 0 made.main := by
  have main := tidy.main
  have none : made.openGroups = 0 := by simp [openGroups, closed]
  rwa [none, ite_self] at main

theorem withClosed (tidy : Tidy made) (closed : made.openRepeat = none) :
    Tidy made.withClosed where
  main := by
    have main := tidy.main_closed closed
    have none : made.withClosed.openGroups = 0 := by simp [openGroups, Assembly.withClosed, closed]
    rwa [none, ite_self]
  current _ here := nomatch here
  branches branch mem := by
    rcases List.mem_append.mp mem with old | new
    · exact tidy.branches branch old
    · have opened : made.current = some branch := by
        simpa using (List.mem_filter.mp new).1
      have leaves := tidy.current branch opened
      rwa [show made.openGroups = 0 by simp [openGroups, closed]] at leaves

theorem withOpened (tidy : Tidy made) (closed : made.openRepeat = none) {header : BranchHeader}
    (legible : header.lead.All Token.Legible) (site : Site) :
    Tidy (made.withOpened header site) where
  main := tidy.main_closed closed
  current branch here := by
    cases here
    have none : (made.withOpened header site).openGroups = 0 := by
      simp [openGroups, Assembly.withOpened, closed]
    rw [none]
    refine ⟨legible, ?_⟩
    unfold Branch.begun BranchHeader.lead
    cases header.discriminator <;> rfl
  branches := tidy.branches

/-- Every line that is accepted keeps the groups where they should be, if
fragments balance. -/
theorem take (tidy : Tidy made) {site : Site} {part : Expansion}
    (closed : Signature.Leaves 0 part.signature)
    (taken : made.take site part site.form = .ok later) : Tidy later := by
  have own := site.legible_own
  have marks := site.repeatMarks_own
  cases form : site.form with
  | field line =>
    rw [form] at taken own marks
    cases taken
    refine tidy.addOther line.field (own line.token (by simp [BodyLine.own])) ?_
    simpa [BodyLine.own, BodyLine.repeatMark?, Signature.repeatMarks] using marks
  | branch header =>
    rw [form] at taken
    obtain ⟨⟨outside, _⟩, rfl⟩ := opened_eq_ok_iff.mp taken
    exact (tidy.withClosed outside).withOpened outside (Site.legible_lead form) site
  | unrecognized =>
    rw [form] at taken
    cases taken
  | control line =>
    rw [form] at taken
    cases line with
    | fragmentRef name =>
      cases taken
      exact ⟨tidy.main.splice closed, tidy.current, tidy.branches⟩
    | placeholder =>
      obtain ⟨_, rfl⟩ := addPlaceholder_eq_ok_iff.mp taken
      refine ⟨tidy.main.splice ⟨?_, rfl⟩, tidy.current, tidy.branches⟩
      simp [Token.Legible]
    | repeatStart =>
      obtain ⟨⟨none, _⟩, rfl⟩ := startRepeat_eq_ok_iff.mp taken
      refine tidy.add fun signature leaves => leaves.append (by simp [Token.Legible]) ?_
      simp [openGroups, none, Signature.repeatMarks, Token.repeatMark?, depth?]
    | repeatEnd =>
      obtain ⟨⟨opened, _⟩, rfl⟩ := endRepeat_eq_ok_iff.mp taken
      obtain ⟨start, here⟩ := Option.isSome_iff_exists.mp opened
      refine tidy.add fun signature leaves => leaves.append (by simp [Token.Legible]) ?_
      simp [openGroups, here, Signature.repeatMarks, Token.repeatMark?, depth?]
    | pack =>
      obtain ⟨_, rfl⟩ := pack_eq_ok_iff.mp taken
      exact ⟨tidy.main, tidy.current, tidy.branches⟩

/-- The signatures of a packet are closed. -/
theorem balanced_keys (tidy : Tidy made) {set : SignatureSet} (h : made.finished = .ok set) :
    ∀ key ∈ set.keys, Balanced (keyMarks key) := by
  obtain ⟨closed, ⟨_, rfl⟩ | ⟨_, _, rfl⟩⟩ := finished_eq_ok_iff.mp h
  · intro key mem
    obtain rfl : key = made.main.render := by simpa using OrderedMap.mem_keys_insert mem
    exact (tidy.main_closed closed).balanced_render
  · intro key mem
    have whole := tidy.withClosed closed
    have listed : made.withClosed.branchEntries
        = .ofEntries (made.withClosed.branches.map made.withClosed.entry) := by
      simp [branchEntries, OrderedMap.ofEntries, OrderedMap.insertAll, List.foldl_map]
    rw [listed] at mem
    obtain ⟨branch, inBranches, rfl⟩ : ∃ branch ∈ made.withClosed.branches,
        (made.withClosed.entry branch).1 = key := by
      simpa using OrderedMap.mem_keys_ofEntries mem
    exact ((whole.main_closed closed).expand (whole.branches branch inBranches)).balanced_render

end Tidy

/-- The keys of a packet balance, if fragments do. -/
theorem balanced_assembled {expand : String → Site → Except Failure Expansion}
    (closed : ∀ name site found, expand name site = .ok found → Signature.Leaves 0 found.signature)
    {lines : List Site} {set : SignatureSet} (h : assembled expand lines = .ok set) :
    ∀ key ∈ set.keys, Balanced (keyMarks key) := by
  obtain ⟨made, run, finished⟩ := assembled_eq_ok_iff.mp h
  have tidy : Tidy made := by
    refine foldlM_step_induction (motive := fun _ made => Tidy made) .start ?_ run
    intro done site made later tidy accepted
    obtain ⟨part, found, taken⟩ := step_eq_ok_iff.mp accepted
    refine tidy.take ?_ taken
    unfold BodyLine.part at found
    split at found
    · exact closed _ _ _ found
    · cases found
      exact .nil
  exact tidy.balanced_keys finished

end Assembly

/-! ## Builds -/

/-- A fragment comes to a closed signature, if the lines of every
fragment balance. -/
theorem closed_expandAfresh {fragments : OrderedMap Fragment}
    (idle : ∀ name fragment, fragments.get? name = some fragment → fragment.busy = false)
    (balanced : ∀ name fragment, fragments.get? name = some fragment →
      Balanced fragment.body.repeatMarks)
    {name : String} {site : Site} {found : Expansion}
    (h : expandAfresh fragments [] name site = .ok found) :
    Signature.Leaves 0 found.signature where
  legible := by
    have own : ∀ text line, BodyLine.read text = .ok line → line.own.All Token.Legible :=
      fun _ _ => BodyLine.all_own (fun _ => trivial) (fun _ _ => Token.legible_of_read?)
        trivial trivial
    have none : ∀ name expansion, (∅ : Expansions).get? name = some expansion →
        expansion.All Token.Legible := fun _ _ there => nomatch there
    rw [← expandGiven_empty idle] at h
    exact all_expandGiven own none [] name site found h
  depth := balanced_iff.mp
    (balanced_expandAfresh (fun reached fragment _ => balanced reached fragment) [] h)

/-- The keys that are kept balance, if the lines of every fragment do. -/
theorem Settled.balanced_keys {results : Results} {declared : Declarations}
    (settled : Settled results declared)
    (balanced : ∀ name fragment, declared.fragments.get? name = some fragment →
      Balanced fragment.body.repeatMarks)
    {header : String} {set : SignatureSet} (kept : results.packets.get? header = some set) :
    ∀ key ∈ set.keys, Balanced (keyMarks key) := by
  obtain ⟨packet, _, made⟩ := settled.packets header set kept
  refine Assembly.balanced_assembled (fun name site found h => ?_) made
  have afresh : expandAfresh declared.fragments [] name site = .ok found := by
    rw [← expandGiven_empty settled.coherent.idle]
    exact settled.coherent.grown.expandGiven_eq_ok (by simp) h
  exact closed_expandAfresh settled.coherent.idle balanced afresh

/-- The table holds signatures that are kept, and no others. -/
theorem SignatureTable.kept_of_assemble {declared : Declarations} {results : Results}
    {timestamp : Nat} {header : String} {entry : PacketEntry}
    (h : (SignatureTable.assemble declared results timestamp).packets.get? header = some entry) :
    ∃ key, results.packets.get? key = some entry.signatures := by
  suffices all : ∀ header entry,
      (SignatureTable.assemble declared results timestamp).packets.get? header = some entry →
        ∃ key, results.packets.get? key = some entry.signatures from all header entry h
  unfold SignatureTable.assemble
  refine List.foldlRecOn (motive := fun made : OrderedMap PacketEntry => ∀ header entry,
    made.get? header = some entry → ∃ key, results.packets.get? key = some entry.signatures)
    _ _ ?_ ?_
  · intro header entry none
    cases none
  · rintro made start ⟨key, packet⟩ _ header entry found
    dsimp only at found
    split at found
    · rename_i signatures kept
      rw [OrderedMap.get?_insert] at found
      split at found
      · cases found
        exact ⟨key, kept⟩
      · exact start header entry found
    · exact start header entry found

namespace Workspace

/-- A build that succeeds ends in a workspace of a sealed session, and
gives its table. -/
theorem build_reached {source : String} {timestamp : Nat} {table : SignatureTable}
    (built : (build {} source timestamp).1 = .ok table) :
    Reached Operation.Sealed (build {} source timestamp).2 ∧
      table = (build {} source timestamp).2.table timestamp := by
  have reached : Reached Operation.Sealed
      ((({} : Workspace).perform (.load source)).perform .compileAll) :=
    (Reached.start.perform trivial).perform trivial
  change Reached Operation.Sealed ((({} : Workspace).load source).2.compileAll).2 at reached
  unfold build at built ⊢
  cases loaded : ({} : Workspace).load source with
  | mk result declared =>
    rw [loaded] at built reached
    cases result with
    | error failure => cases built
    | ok _ =>
      dsimp only at built reached ⊢
      cases all : declared.compileAll with
      | mk result compiled =>
        rw [all] at built reached
        cases result with
        | error failure => cases built
        | ok _ =>
          cases built
          exact ⟨reached, rfl⟩

/-- The keys of a build balance, if the lines of every fragment do: the
marks of the packets need not be looked at. -/
theorem build_balanced {source : String} {timestamp : Nat} {table : SignatureTable}
    (built : (build {} source timestamp).1 = .ok table)
    (balanced : ∀ fragment ∈ (build {} source timestamp).2.declared.fragments.values,
      Balanced fragment.body.repeatMarks) :
    ∀ header entry, table.packets.get? header = some entry →
      ∀ key ∈ entry.signatures.keys, Balanced (keyMarks key) := by
  obtain ⟨reached, rfl⟩ := build_reached built
  intro header entry found
  obtain ⟨kept, there⟩ := SignatureTable.kept_of_assemble found
  refine (settled_of_reached reached).balanced_keys (fun name fragment declared => ?_) there
  exact balanced fragment (OrderedMap.mem_values_of_get? declared)

/-- The keys of a packet in the table that a build gives. -/
def keysUnder (header : String) : Except Failure SignatureTable → Option (List String)
  | .ok table => (table.packets.get? header).map fun entry => entry.signatures.keys
  | .error _ => none

theorem exists_of_keysUnder {header : String} {result : Except Failure SignatureTable}
    {keys : List String} (h : keysUnder header result = some keys) :
    ∃ table entry, result = .ok table ∧ table.packets.get? header = some entry ∧
      entry.signatures.keys = keys := by
  cases result with
  | error failure => cases h
  | ok table =>
    obtain ⟨entry, found, same⟩ := Option.map_eq_some_iff.mp h
    exact ⟨table, entry, rfl, found, same⟩

/-- A packet with a group around the placeholder, a group in a branch, and
a group from a fragment. -/
def closedSource : String :=
  "<parser>\nFragment[Path]\n+ REP\nx:$2\n- REP\nPacket[Move]:6f\n+ REP\n+ SubCate\n- REP\n"
    ++ "SubCate[walk]:01\n+ Fragment[Path]\n+ REP\ny:$1\n- REP\n</parser>"

/-- The groups of the packet are all stopped, one of them inside
another. -/
theorem build_balanced_closed :
    ∃ table entry, (build {} closedSource 0).1 = .ok table ∧
      table.packets.get? "6F" = some entry ∧
      entry.signatures.keys = ["[REPS] 01 [REPS] $1 [REPE] [REPE] [REPS] $2 [REPE]"] ∧
      ∀ key ∈ entry.signatures.keys, Balanced (keyMarks key) := by
  have run : keysUnder "6F" (build {} closedSource 0).1
        = some ["[REPS] 01 [REPS] $1 [REPE] [REPE] [REPS] $2 [REPE]"] ∧
      ∀ fragment ∈ (build {} closedSource 0).2.declared.fragments.values,
        Balanced fragment.body.repeatMarks := by decide +kernel
  obtain ⟨keys, balanced⟩ := run
  obtain ⟨table, entry, built, found, same⟩ := exists_of_keysUnder keys
  exact ⟨table, entry, built, found, same, build_balanced built balanced "6F" entry found⟩

/-- A fragment with a group that is never stopped, and a packet that
refers to it. -/
def openSource : String :=
  "<parser>\nFragment[F]\n+ REP\nX:$1\nPacket[P]:01\n+ Fragment[F]\n</parser>\n"

/-- The build succeeds, and the key of the packet starts a group that it
does not stop. -/
theorem build_unbalanced :
    ∃ table entry, (build {} openSource 0).1 = .ok table ∧
      table.packets.get? "01" = some entry ∧
      ∃ key ∈ entry.signatures.keys, ¬ Balanced (keyMarks key) := by
  have keys : keysUnder "01" (build {} openSource 0).1 = some ["[REPS] $1"] := by
    decide +kernel
  have unbalanced : ¬ Balanced (keyMarks "[REPS] $1") := by decide +kernel
  obtain ⟨table, entry, built, found, same⟩ := exists_of_keysUnder keys
  exact ⟨table, entry, built, found, "[REPS] $1", by simp [same], unbalanced⟩

end Workspace

end PacketLayout
