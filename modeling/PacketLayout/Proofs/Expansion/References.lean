/-
PacketLayout.Proofs.Expansion.References — fragments as a graph.

A fragment refers to another one if one of its lines does. Expanding a
fragment follows these references and nothing else, so what it comes to
is a matter of the graph that can be reached from the name: which names
are declared, which lines stand there, and whether a way leads round.

* `expandAfresh_congr`: nothing outside what can be reached counts.
* `exists_expandAfresh_iff`: there is an expansion exactly if everything
  that can be reached is declared, has only lines that may stand in a
  fragment, and is not on a way round.
* `expandAfresh_cycle`: a failure that tells of a way round tells a real
  one.
* `Workspace.compileFragment_acyclic`: the same of compiling, in every
  workspace of a sealed session.
-/
import Mathlib.Data.List.Chain
import Mathlib.Data.List.Nodup
import Mathlib.Logic.Relation
import PacketLayout.Proofs.Packet.Outline
import PacketLayout.Proofs.Sealed

namespace PacketLayout

open Relation

/-! ## References -/

/-- The name that a line refers to. -/
def BodyLine.reference? : BodyLine → Option String
  | .control (.fragmentRef name) => some name
  | _ => none

theorem BodyLine.eq_of_reference {line : BodyLine} {name : String}
    (ref : line.reference? = some name) : line = .control (.fragmentRef name) := by
  cases line with
  | field line => cases ref
  | branch header => cases ref
  | unrecognized => cases ref
  | control line =>
    cases line with
    | fragmentRef other =>
      cases ref
      rfl
    | _ => cases ref

/-- The line may stand in a fragment: it is a field line, a reference, or
a mark of a repeated group. -/
def BodyLine.fitsFragment : BodyLine → Bool
  | .field _ | .control (.fragmentRef _) | .control .repeatStart | .control .repeatEnd => true
  | _ => false

/-- The names that the lines of a body refer to, in order. -/
def Body.references (body : Body) : List String :=
  body.lines.filterMap fun site => site.form.reference?

theorem Body.mem_references {body : Body} {name : String} :
    name ∈ body.references ↔ ∃ site ∈ body.lines, site.form.reference? = some name :=
  List.mem_filterMap

/-- A line of the fragment `outer` refers to `inner`. -/
def Refers (fragments : OrderedMap Fragment) (outer inner : String) : Prop :=
  ∃ fragment, fragments.get? outer = some fragment ∧ inner ∈ fragment.body.references

/-- The name is declared, and all lines of its fragment may stand
there. -/
def Sound (fragments : OrderedMap Fragment) (name : String) : Prop :=
  ∃ fragment, fragments.get? name = some fragment ∧
    ∀ site ∈ fragment.body.lines, site.form.fitsFragment = true

/-- The name stands for the same lines, or is declared in neither. -/
def SameLines (fragments others : OrderedMap Fragment) (name : String) : Prop :=
  (fragments.get? name).map Fragment.body = (others.get? name).map Fragment.body

instance (fragments others : OrderedMap Fragment) (name : String) :
    Decidable (SameLines fragments others name) :=
  inferInstanceAs (Decidable (_ = _))

/-- The names that can be reached from the lines of a body. -/
def Body.Reaches (fragments : OrderedMap Fragment) (body : Body) (name : String) : Prop :=
  ∃ first ∈ body.references, ReflTransGen (Refers fragments) first name

/-- Names that the fragments under these names refer to are all that can
be reached from one of them. -/
theorem mem_of_reached {fragments : OrderedMap Fragment} {names : List String}
    (closed : ∀ outer ∈ names, ∀ fragment ∈ fragments.get? outer,
      ∀ inner ∈ fragment.body.references, inner ∈ names)
    {start reached : String} (way : ReflTransGen (Refers fragments) start reached)
    (mem : start ∈ names) : reached ∈ names := by
  induction way with
  | refl => exact mem
  | tail _ last ih =>
    obtain ⟨fragment, declared, listed⟩ := last
    exact closed _ ih fragment declared _ listed

/-! ## One line, all lines -/

/-- Reading a line fails for what the line says, never for a way
round. -/
theorem BodyLine.read_ne_cycle {text : List Char} {name : String} {chain : List String} :
    BodyLine.read text ≠ .error (.fragmentCycle name chain) := by
  intro h
  unfold BodyLine.read at h
  split at h
  · rename_i cause failed
    cases h
    unfold FieldLine.read at failed
    split at failed
    · unfold FieldLine.readPadding at failed
      grind [Except.map]
    · split at failed
      · cases failed
      · unfold FieldLine.readParts at failed
        grind [Except.map]
  · cases h
  · unfold BranchHeader.read at h
    grind [Except.map]

namespace Expansion

variable {expand other : String → Site → Except Failure Expansion}

/-- What a line of a fragment comes to: a reference to what is found for
it, any other line that may stand there to its own units, and every other
line to a failure that tells of no way round. -/
theorem ofLine_cases (site : Site) :
    (∃ name, site.form.reference? = some name ∧ site.form.fitsFragment = true ∧
      ∀ expand, ofLine expand site = expand name site) ∨
    (site.form.reference? = none ∧ site.form.fitsFragment = true ∧
      ∃ piece, piece.signature = site.form.own.signature ∧
        ∀ expand, ofLine expand site = .ok piece) ∨
    (site.form.reference? = none ∧ site.form.fitsFragment = false ∧
      ∃ cause : Cause, (∀ name chain, cause ≠ .fragmentCycle name chain) ∧
        ∀ expand, ofLine expand site = .error (cause.atSite site)) := by
  unfold Site.form ofLine
  cases read : BodyLine.read site.raw.toList with
  | error cause =>
    refine .inr (.inr ⟨rfl, rfl, cause, ?_, fun _ => rfl⟩)
    rintro name chain rfl
    exact BodyLine.read_ne_cycle read
  | ok line =>
    cases line with
    | field line => exact .inr (.inl ⟨rfl, rfl, _, rfl, fun _ => rfl⟩)
    | branch header => exact .inr (.inr ⟨rfl, rfl, .invalidCode .fragment, by simp, fun _ => rfl⟩)
    | unrecognized => exact .inr (.inr ⟨rfl, rfl, .invalidCode .fragment, by simp, fun _ => rfl⟩)
    | control line =>
      cases line with
      | fragmentRef name => exact .inl ⟨name, rfl, rfl, fun _ => rfl⟩
      | repeatStart => exact .inr (.inl ⟨rfl, rfl, ⟨[.repeatStart], []⟩, rfl, fun _ => rfl⟩)
      | repeatEnd => exact .inr (.inl ⟨rfl, rfl, ⟨[.repeatEnd], []⟩, rfl, fun _ => rfl⟩)
      | placeholder =>
        exact .inr (.inr ⟨rfl, rfl, .invalidCode .fragment, by simp, fun _ => rfl⟩)
      | pack => exact .inr (.inr ⟨rfl, rfl, .invalidCode .fragment, by simp, fun _ => rfl⟩)

theorem exists_ofLine_iff {site : Site} :
    (∃ piece, ofLine expand site = .ok piece) ↔
      site.form.fitsFragment = true ∧
        ∀ name, site.form.reference? = some name → ∃ found, expand name site = .ok found := by
  obtain ⟨name, ref, fits, line⟩ | ⟨ref, fits, piece, _, line⟩ | ⟨ref, fits, cause, _, line⟩ :=
    ofLine_cases site
  · simp [ref, fits, line]
  · simp [ref, fits, line]
  · simp [fits, line]

theorem exists_ofLines_iff {lines : List Site} :
    (∃ whole, ofLines expand lines = .ok whole) ↔
      ∀ site ∈ lines, ∃ piece, ofLine expand site = .ok piece := by
  induction lines with
  | nil => simp
  | cons site rest ih =>
    rw [List.forall_mem_cons, ← ih]
    constructor
    · rintro ⟨whole, h⟩
      obtain ⟨piece, more, first, later, _⟩ := ofLines_cons_eq_ok h
      exact ⟨⟨piece, first⟩, more, later⟩
    · rintro ⟨⟨piece, first⟩, more, later⟩
      exact ⟨piece.append more, by rw [ofLines_cons_ok first, later]; rfl⟩

theorem ofLine_congr {site : Site}
    (same : ∀ name, site.form.reference? = some name → expand name site = other name site) :
    ofLine expand site = ofLine other site := by
  obtain ⟨name, ref, _, line⟩ | ⟨_, _, piece, _, line⟩ | ⟨_, _, cause, _, line⟩ :=
    ofLine_cases site
  · rw [line, line, same name ref]
  · rw [line, line]
  · rw [line, line]

/-- Only what the expanders find for the references counts. -/
theorem ofLines_congr {lines : List Site}
    (same : ∀ site ∈ lines, ∀ name, site.form.reference? = some name →
      expand name site = other name site) :
    ofLines expand lines = ofLines other lines := by
  induction lines with
  | nil => rfl
  | cons site rest ih =>
    have first : ofLine expand site = ofLine other site := ofLine_congr (same site (by simp))
    have later := ih fun place mem => same place (by simp [mem])
    cases piece : ofLine expand site with
    | error failure => rw [ofLines_cons_error piece, ofLines_cons_error (first ▸ piece)]
    | ok part => rw [ofLines_cons_ok piece, ofLines_cons_ok (first ▸ piece), later]

/-- The failure of a body is the failure of one of its lines. -/
theorem exists_ofLine_error {lines : List Site} {failure : Failure}
    (h : ofLines expand lines = .error failure) :
    ∃ site ∈ lines, ofLine expand site = .error failure := by
  induction lines with
  | nil => cases h
  | cons site rest ih =>
    cases first : ofLine expand site with
    | error other =>
      rw [ofLines_cons_error first] at h
      cases h
      exact ⟨site, by simp, first⟩
    | ok piece =>
      rw [ofLines_cons_ok first] at h
      cases later : ofLines expand rest with
      | ok more =>
        rw [later] at h
        cases h
      | error other =>
        rw [later] at h
        cases h
        obtain ⟨place, mem, failed⟩ := ih later
        exact ⟨place, by simp [mem], failed⟩

/-- A line tells of a way round only if it is a reference. -/
theorem reference_of_cycle {site place : Site} {name : String} {chain : List String}
    (h : ofLine expand site = .error ((Cause.fragmentCycle name chain).atSite place)) :
    ∃ inner, site.form.reference? = some inner ∧
      expand inner site = .error ((Cause.fragmentCycle name chain).atSite place) := by
  obtain ⟨inner, ref, _, line⟩ | ⟨_, _, piece, _, line⟩ | ⟨_, _, cause, acyclic, line⟩ :=
    ofLine_cases site
  · exact ⟨inner, ref, (line expand).symm.trans h⟩
  · rw [line] at h
    cases h
  · rw [line] at h
    cases h
    exact absurd rfl (acyclic name chain)

end Expansion

/-! ## Fragments -/

section Graph

variable {fragments others : OrderedMap Fragment} {path : List String} {name : String}
  {site : Site}

/-- Nothing outside what can be reached from a name counts for its
expansion, and of what can be reached only the lines. -/
theorem expandAfresh_congr
    (same : ∀ reached, ReflTransGen (Refers fragments) name reached →
      SameLines fragments others reached)
    (path : List String) (site : Site) :
    expandAfresh fragments path name site = expandAfresh others path name site := by
  induction path using offPath_induction fragments.keys generalizing name site with
  | step path ih =>
    have here := same name .refl
    unfold SameLines at here
    rw [expandAfresh_eq fragments, expandAfresh_eq others]
    cases declared : fragments.get? name with
    | none =>
      rw [declared] at here
      rw [Option.map_eq_none_iff.mp here.symm]
    | some fragment =>
      rw [declared] at here
      obtain ⟨other, there, body⟩ := Option.map_eq_some_iff.mp here.symm
      rw [there]
      dsimp only
      rw [body]
      by_cases again : name ∈ path
      · rw [if_pos again, if_pos again]
      · rw [if_neg again, if_neg again]
        refine Expansion.ofLines_congr fun place mem inner ref => ?_
        refine ih name (OrderedMap.mem_keys_of_get? declared) again (fun reached way => ?_) place
        have refers : Refers fragments name inner :=
          ⟨fragment, declared, Body.mem_references.mpr ⟨place, mem, ref⟩⟩
        exact same reached (.head refers way)

/-- Along a path, a fragment has an expansion exactly if everything that
can be reached from it is off the path, sound, and not on a way round. -/
theorem exists_expandAfresh_iff :
    (∃ expansion, expandAfresh fragments path name site = .ok expansion) ↔
      ∀ reached, ReflTransGen (Refers fragments) name reached →
        reached ∉ path ∧ Sound fragments reached ∧
          ¬ TransGen (Refers fragments) reached reached := by
  induction path using offPath_induction fragments.keys generalizing name site with
  | step path ih =>
    rw [expandAfresh_eq]
    cases declared : fragments.get? name with
    | none =>
      refine iff_of_false (fun ⟨_, h⟩ => nomatch h) fun all => ?_
      obtain ⟨_, ⟨fragment, there, _⟩, _⟩ := all name .refl
      rw [declared] at there
      cases there
    | some fragment =>
      by_cases again : name ∈ path
      · simp only [if_pos again]
        exact iff_of_false (fun ⟨_, h⟩ => nomatch h) fun all => (all name .refl).1 again
      · simp only [if_neg again, Expansion.exists_ofLines_iff, Expansion.exists_ofLine_iff,
          ih name (OrderedMap.mem_keys_of_get? declared) again]
        have refers {place : Site} {inner : String} (mem : place ∈ fragment.body.lines)
            (ref : place.form.reference? = some inner) : Refers fragments name inner :=
          ⟨fragment, declared, Body.mem_references.mpr ⟨place, mem, ref⟩⟩
        have line {inner : String} (h : Refers fragments name inner) :
            ∃ place ∈ fragment.body.lines, place.form.reference? = some inner := by
          obtain ⟨other, there, listed⟩ := h
          obtain rfl : fragment = other := by simpa [declared] using there
          exact Body.mem_references.mp listed
        constructor
        · intro all reached way
          rcases ReflTransGen.cases_head way with rfl | ⟨inner, first, rest⟩
          · refine ⟨again, ⟨fragment, declared, fun place mem => (all place mem).1⟩,
              fun round => ?_⟩
            -- a way round from the name itself would come back to the path
            obtain ⟨inner, first, rest⟩ := TransGen.head'_iff.mp round
            obtain ⟨place, mem, ref⟩ := line first
            exact ((all place mem).2 inner ref name rest).1 (by simp)
          · obtain ⟨place, mem, ref⟩ := line first
            obtain ⟨off, sound, acyclic⟩ := (all place mem).2 inner ref reached rest
            exact ⟨fun inside => off (by simp [inside]), sound, acyclic⟩
        · intro all place mem
          obtain ⟨_, ⟨other, there, fits⟩, acyclic⟩ := all name .refl
          obtain rfl : fragment = other := by simpa [declared] using there
          refine ⟨fits place mem, fun inner ref reached way => ?_⟩
          have first := refers mem ref
          obtain ⟨off, sound, round⟩ := all reached (.head first way)
          refine ⟨fun inside => ?_, sound, round⟩
          rcases List.mem_append.mp inside with inside | inside
          · exact off inside
          · obtain rfl : reached = name := by simpa using inside
            exact acyclic (.head' first way)

/-- A failure that tells of a way round, met along a path of references:
the chain goes on from the path by references, and comes back to the name
that is blamed, which it has met once before. -/
theorem expandAfresh_cycle (linked : (path ++ [name]).IsChain (Refers fragments))
    (distinct : path.Nodup) {blamed : String} {chain : List String} {place : Site}
    (h : expandAfresh fragments path name site
      = .error ((Cause.fragmentCycle blamed chain).atSite place)) :
    path ++ [name] <+: chain ∧ chain.getLast? = some blamed ∧
      chain.dropLast.count blamed = 1 ∧ chain.IsChain (Refers fragments) := by
  induction path using offPath_induction fragments.keys generalizing name site with
  | step path ih =>
    rw [expandAfresh_eq] at h
    cases declared : fragments.get? name with
    | none =>
      rw [declared] at h
      cases h
    | some fragment =>
      rw [declared] at h
      dsimp only at h
      split at h
      · rename_i again
        cases h
        exact ⟨List.prefix_rfl, by simp, by simpa using List.count_eq_one_of_mem distinct again,
          linked⟩
      · rename_i off
        obtain ⟨line, mem, failed⟩ := Expansion.exists_ofLine_error h
        obtain ⟨inner, ref, found⟩ := Expansion.reference_of_cycle failed
        have refers : Refers fragments name inner :=
          ⟨fragment, declared, Body.mem_references.mpr ⟨line, mem, ref⟩⟩
        have longer : (path ++ [name] ++ [inner]).IsChain (Refers fragments) := by
          refine List.isChain_append.mpr ⟨linked, List.isChain_singleton _, ?_⟩
          intro last isLast next isNext
          obtain rfl : name = last := by simpa using isLast
          obtain rfl : inner = next := by simpa using isNext
          exact refers
        have apart : (path ++ [name]).Nodup := by
          rw [List.nodup_append]
          refine ⟨distinct, by simp, fun other inside last isLast same => off ?_⟩
          obtain rfl : last = name := by simpa using isLast
          exact same ▸ inside
        obtain ⟨onward, rest⟩ :=
          ih name (OrderedMap.mem_keys_of_get? declared) off longer apart found
        exact ⟨(List.prefix_append _ _).trans onward, rest⟩

end Graph

/-! ## Compiling -/

namespace Workspace

variable {workspace : Workspace}

/-- After a sealed session, a fragment can be compiled exactly if
everything that can be reached from it is declared, has only lines that
may stand in a fragment, and is not on a way round. If a failure tells of
a way round, its chain leads by references from the fragment to the name
that is blamed, which it has met once before. -/
theorem compileFragment_acyclic (reached : Reached Operation.Sealed workspace)
    (name : String) (site : Site) :
    ((∃ expansion, (workspace.compileFragment name site).1 = .ok expansion) ↔
      ∀ inner, ReflTransGen (Refers workspace.declared.fragments) name inner →
        Sound workspace.declared.fragments inner ∧
          ¬ TransGen (Refers workspace.declared.fragments) inner inner) ∧
    ∀ failure blamed chain, (workspace.compileFragment name site).1 = .error failure →
      failure.cause = .fragmentCycle blamed chain →
      chain.head? = some name ∧ chain.getLast? = some blamed ∧
        chain.dropLast.count blamed = 1 ∧
        chain.IsChain (Refers workspace.declared.fragments) ∧
        failure.cause.message = "Fragment[" ++ blamed ++ "] references itself (cycle: "
          ++ " -> ".intercalate chain ++ ")" := by
  rw [compileFragment_settled (settled_of_reached reached)]
  constructor
  · rw [exists_expandAfresh_iff]
    simp
  · rintro ⟨cause, place⟩ blamed chain failed rfl
    obtain ⟨start, last, once, linked⟩ :=
      expandAfresh_cycle (List.isChain_singleton name) List.nodup_nil failed
    refine ⟨?_, last, once, linked, rfl⟩
    obtain ⟨rest, rfl⟩ := start
    rfl

/-- Three fragments, the last of which refers back to the second. -/
def ringSession : List Operation :=
  [.registerFragment "Start" ⟨1, "Fragment[Start]"⟩,
   .addLine (.fragment "Start") ⟨2, "+ Fragment[Left]"⟩,
   .registerFragment "Left" ⟨3, "Fragment[Left]"⟩,
   .addLine (.fragment "Left") ⟨4, "+ Fragment[Right]"⟩,
   .compileFragment "Left" ⟨4, "Left"⟩,
   .registerFragment "Right" ⟨5, "Fragment[Right]"⟩,
   .addLine (.fragment "Right") ⟨6, "x:$2"⟩,
   .addLine (.fragment "Right") ⟨7, "+ Fragment[Left]"⟩]

/-- The workspace of the three fragments. -/
def ring : Workspace :=
  ringSession.foldl Workspace.perform {}

theorem sealed_ring : Reached Operation.Sealed ring := by
  have isSealed : Session Operation.Sealed {} ringSession := by decide +kernel
  exact Reached.start.session isSealed

/-- The ring is found from its start, and the path of the small session
is sound. -/
theorem compileFragment_acyclic_ring :
    (ring.compileFragment "Start" ⟨8, "Start"⟩).1
      = .error ((Cause.fragmentCycle "Left" ["Start", "Left", "Right", "Left"]).atSite
          ⟨7, "+ Fragment[Left]"⟩) ∧
    ["Start", "Left", "Right", "Left"].IsChain (Refers ring.declared.fragments) ∧
    ∀ inner, ReflTransGen (Refers sample.declared.fragments) "Path" inner →
      Sound sample.declared.fragments inner ∧
        ¬ TransGen (Refers sample.declared.fragments) inner inner := by
  have round : (ring.compileFragment "Start" ⟨8, "Start"⟩).1
      = .error ((Cause.fragmentCycle "Left" ["Start", "Left", "Right", "Left"]).atSite
          ⟨7, "+ Fragment[Left]"⟩) := by decide +kernel
  have found : (sample.compileFragment "Path" ⟨16, "+ Fragment[Path]"⟩).1
      = .ok ⟨[.repeatStart, .size 2, .repeatEnd], [⟨"x", none, none, none⟩]⟩ := by
    decide +kernel
  obtain ⟨_, _, _, linked, _⟩ :=
    (compileFragment_acyclic sealed_ring "Start" ⟨8, "Start"⟩).2 _ _ _ round rfl
  exact ⟨round, linked,
    (compileFragment_acyclic sealed_sample "Path" ⟨16, "+ Fragment[Path]"⟩).1.mp ⟨_, found⟩⟩

end Workspace

end PacketLayout
