/-
PacketLayout.Proofs.Termination — why compiling comes to an end.

A fragment's lines refer to fragments, whose lines refer to fragments,
and nothing in the declarations keeps them from referring round in a
circle. `turn` is what is done for one reference, with the work for the
references inside left open: there is no path in it and no bound, only
the marks. `Calls` says which pieces of work come next or lie inside
which.

The pieces have a measure, the number of pending fragments and then the
number of lines that are left. To begin a fragment takes it out of the
pending ones. A failure puts it back, but it also ends the lines of
whoever referred to it, so that on the way back there are never more of
them than there were.

* `Marked.Calls.smaller`: every piece of work is smaller than the one it
  comes from, so there is no endless chain of them.
* `Marked.turn_asks`: a reference depends on the references it comes to,
  and on nothing else.
* `Marked.turn_iterate`: references are never nested deeper than there
  are pending fragments.
* `Marked.compiling_ends`: all of this, of fragments and of packets, with
  any declarations.
-/
import Mathlib.Data.Prod.Lex
import Mathlib.Logic.Function.Iterate
import PacketLayout.Proofs.Expansion.References
import PacketLayout.Proofs.Retry

namespace PacketLayout

namespace Marked

/-! ## One turn -/

/-- Ends to build the fragment with a header on `line`: its mark says
that it has been compiled, or that its building has not begun. -/
def endTurn (line : Nat) (name : String) : Outcome Bench Expansion → Outcome Bench Expansion
  | ⟨.ok expansion, bench, entries⟩ =>
    ⟨.ok expansion, bench.leave name (.compiled expansion),
      .info line (.fragmentStarted name) :: entries
        ++ [.trace (.fragmentBuilt name expansion.signature.render)]⟩
  | ⟨.error failure, bench, entries⟩ =>
    ⟨.error failure, bench.leave name .pending, .info line (.fragmentStarted name) :: entries⟩

/-- What is done for a reference to the fragment `name` at `site`, where
`inner` does it for the references in the lines of the fragment. -/
def turn (fragments : OrderedMap Fragment) (inner : String → Site → Job Bench Expansion)
    (name : String) (site : Site) : Job Bench Expansion := fun bench =>
  match fragments.get? name with
  | none => ⟨.error ((Cause.undeclaredFragment name).atSite site), bench, []⟩
  | some fragment =>
    match bench.marks name with
    | .compiled expansion => ⟨.ok expansion, bench, []⟩
    | .busy =>
      ⟨.error ((Cause.fragmentCycle name (bench.stack ++ [name])).atSite site), bench, []⟩
    | .pending =>
      endTurn fragment.line name
        (fragment.body.lines.foldlM (Expansion.addLine inner) {} (bench.enter name))

/-- The signatures that the lines of a packet give, where `inner` does
what is done for the references in them. -/
def assembleBy (inner : String → Site → Job Bench Expansion) (body : Body) :
    Job Bench SignatureSet := do
  let made ← body.lines.foldlM (Assembly.addLine inner) {}
  made.finish

/-- Compiles the packet with a header, where `inner` does what is done
for the references in its lines. -/
def compilePacketBy (declared : Declarations) (inner : String → Site → Job Bench Expansion)
    (header : String) : Job Bench Unit :=
  let header := Text.upper header
  match declared.packets.get? header with
  | none => Job.fail ((Cause.undeclaredPacket header).atSite ⟨0, header⟩)
  | some packet => do
    let bench ← Job.get
    if bench.packets.contains header then pure ()
    else do
      Job.report [.info packet.line (.packetStarted header packet.description)]
      let set ← assembleBy inner packet.body
      recordPacket header set

section Turn

variable {fragments : OrderedMap Fragment} {inner : String → Site → Job Bench Expansion}
  {bench : Bench} {name : String} {site : Site}

theorem turn_undeclared (undeclared : fragments.get? name = none) :
    turn fragments inner name site bench
      = ⟨.error ((Cause.undeclaredFragment name).atSite site), bench, []⟩ := by
  simp [turn, undeclared]

variable {fragment : Fragment}

theorem turn_compiled (declared : fragments.get? name = some fragment) {expansion : Expansion}
    (marked : bench.marks name = .compiled expansion) :
    turn fragments inner name site bench = ⟨.ok expansion, bench, []⟩ := by
  simp [turn, declared, marked]

theorem turn_busy (declared : fragments.get? name = some fragment)
    (marked : bench.marks name = .busy) :
    turn fragments inner name site bench
      = ⟨.error ((Cause.fragmentCycle name (bench.stack ++ [name])).atSite site), bench, []⟩ := by
  simp [turn, declared, marked]

theorem turn_pending (declared : fragments.get? name = some fragment)
    (marked : bench.marks name = .pending) :
    turn fragments inner name site bench
      = endTurn fragment.line name
          (fragment.body.lines.foldlM (Expansion.addLine inner) {} (bench.enter name)) := by
  simp [turn, declared, marked]

end Turn

/-! ## Turn by turn -/

section Levels

variable {fragments : OrderedMap Fragment} {room : Nat}

/-- The bench, without the bound on what is pending. -/
def Unbound (bench : Bench) (within : Within fragments room) : Prop :=
  bench = within.val

theorem endTurn_mirrors {line : Nat} {name : String} (pos : 0 < room)
    {turned : Outcome Bench Expansion} {visited : Outcome (Within fragments (room - 1)) Expansion}
    (result : turned.result = visited.result) (entries : turned.entries = visited.entries)
    (left : Unbound turned.state visited.state) :
    (endTurn line name turned).result = (endBuild line name pos visited).result ∧
      (endTurn line name turned).entries = (endBuild line name pos visited).entries ∧
      Unbound (endTurn line name turned).state (endBuild line name pos visited).state := by
  obtain ⟨answer, bench, reported⟩ := turned
  obtain ⟨answer', within, reported'⟩ := visited
  dsimp only [Unbound] at result entries left
  subst result entries left
  cases answer with
  | ok expansion => exact ⟨rfl, rfl, rfl⟩
  | error failure => exact ⟨rfl, rfl, rfl⟩

/-- One turn goes in step with a visit, if the references inside go in
step with the visits that have less room. They are met only if there is
room. -/
theorem turn_mirrors {inner : String → Site → Job Bench Expansion}
    (same : 0 < room → ∀ name site,
      Job.Mirrors (@Unbound fragments (room - 1)) (inner name site)
        (visit fragments (room - 1) name site))
    (name : String) (site : Site) :
    Job.Mirrors Unbound (turn fragments inner name site) (visit fragments room name site) := by
  rintro _ within rfl
  cases declared : fragments.get? name with
  | none =>
    rw [turn_undeclared declared, visit_undeclared within declared]
    exact ⟨rfl, rfl, rfl⟩
  | some fragment =>
    cases marked : within.val.marks name with
    | compiled expansion =>
      rw [turn_compiled declared marked, visit_kept declared marked]
      exact ⟨rfl, rfl, rfl⟩
    | busy =>
      rw [turn_busy declared marked, visit_busy declared marked]
      exact ⟨rfl, rfl, rfl⟩
    | pending =>
      have known := OrderedMap.mem_keys_of_get? declared
      have pos : 0 < room := within.room_pos known marked
      rw [turn_pending declared marked, visit_pending declared marked]
      obtain ⟨result, entries, left⟩ :=
        Job.mirrors_foldlM (Expansion.addLine_mirrors (same pos)) fragment.body.lines {}
          (within.val.enter name) (within.enter name known marked) rfl
      exact endTurn_mirrors pos result entries left

/-- More turns than there is room for do what a visit does, whatever is
done inside the innermost of them. -/
theorem iterate_mirrors (deeper : String → Site → Job Bench Expansion) {levels : Nat}
    (more : room < levels) (name : String) (site : Site) :
    Job.Mirrors Unbound ((turn fragments)^[levels] deeper name site)
      (visit fragments room name site) := by
  induction levels generalizing room name site with
  | zero => omega
  | succ levels ih =>
    rw [Function.iterate_succ_apply']
    exact turn_mirrors (fun pos => ih (by omega)) name site

/-- Two jobs that go in step with the same visit do the same. -/
theorem run_eq_of_unbound {first second : Job Bench Expansion}
    {visited : Job (Within fragments room) Expansion} (one : Job.Mirrors Unbound first visited)
    (two : Job.Mirrors Unbound second visited) (within : Within fragments room) :
    first within.val = second within.val := by
  obtain ⟨result, entries, left⟩ := one within.val within rfl
  obtain ⟨result', entries', left'⟩ := two within.val within rfl
  dsimp only [Unbound] at left left'
  calc first within.val
      = ⟨(first within.val).result, (first within.val).state, (first within.val).entries⟩ := rfl
    _ = ⟨(second within.val).result, (second within.val).state,
          (second within.val).entries⟩ := by
        rw [result, entries, left, result', entries', left']
    _ = second within.val := rfl

end Levels

variable {declared : Declarations}

/-- A visit does the same in all rooms that are large enough. -/
theorem compileFragment_mirrors_visit (room : Nat) (name : String) (site : Site) :
    Job.Mirrors Unbound (compileFragment declared name site)
      (visit declared.fragments room name site) := by
  rintro _ within rfl
  have enough : (within.val.pending declared.fragments).card < room + 1 := by
    have := within.property
    omega
  let deeper := compileFragment declared
  obtain ⟨result, entries, left⟩ :=
    iterate_mirrors deeper (Nat.lt_succ_self room) name site within.val within rfl
  obtain ⟨result', entries', left'⟩ :=
    iterate_mirrors deeper enough name site within.val ⟨within.val, Nat.le_refl _⟩ rfl
  exact ⟨result'.symm.trans result, entries'.symm.trans entries, left'.symm.trans left⟩

/-- Compiling a fragment is one turn, where the fragments inside are
compiled in the same way. -/
theorem compileFragment_eq_turn :
    compileFragment declared = turn declared.fragments (compileFragment declared) := by
  funext name site bench
  let within : Within declared.fragments (bench.pending declared.fragments).card :=
    ⟨bench, Nat.le_refl _⟩
  exact run_eq_of_unbound (compileFragment_mirrors_visit _ name site)
    (turn_mirrors (fun _ => compileFragment_mirrors_visit _) name site) within

/-- References are never nested deeper than there are pending fragments:
what is done inside more turns than that is not done. -/
theorem turn_iterate (deeper : String → Site → Job Bench Expansion) {levels : Nat} {bench : Bench}
    (more : (bench.pending declared.fragments).card < levels) (name : String) (site : Site) :
    (turn declared.fragments)^[levels] deeper name site bench
      = compileFragment declared name site bench := by
  let within : Within declared.fragments (bench.pending declared.fragments).card :=
    ⟨bench, Nat.le_refl _⟩
  exact run_eq_of_unbound (iterate_mirrors deeper more name site)
    (compileFragment_mirrors_visit _ name site) within

/-- There are no more pending fragments when a reference has been
followed than there were, whether it fails or not. -/
theorem card_pending_le (name : String) (site : Site) (bench : Bench) :
    ((compileFragment declared name site bench).state.pending declared.fragments).card
      ≤ (bench.pending declared.fragments).card :=
  (visit declared.fragments _ name site ⟨bench, Nat.le_refl _⟩).state.property

/-! ## Pieces of work -/

/-- A piece of work: a reference, a packet, or what is left of the lines
of either, behind what has been made of the lines before. -/
inductive Task where
  | reference (name : String) (site : Site)
  | fragmentLines (made : Expansion) (rest : List Site)
  | packet (header : String)
  | packetLines (made : Assembly) (rest : List Site)

/-- The lines that are left. -/
def Task.remaining (declared : Declarations) : Task → Nat
  | .reference _ _ => 0
  | .fragmentLines _ rest => rest.length
  | .packet header =>
    ((declared.packets.get? (Text.upper header)).map fun packet =>
      packet.body.lines.length + 1).getD 0
  | .packetLines _ rest => rest.length

/-- The line is a reference to the fragment `name`. -/
def RefersTo (site : Site) (name : String) : Prop :=
  BodyLine.read site.raw.toList = .ok (.control (.fragmentRef name))

/-- The second piece of work lies inside the first, or comes next where
the first goes on. Behind a line that fails nothing comes. -/
inductive Calls (declared : Declarations) : Bench × Task → Bench × Task → Prop
  | build {bench : Bench} {name : String} {site : Site} {fragment : Fragment}
    (known : declared.fragments.get? name = some fragment)
    (marked : bench.marks name = .pending) :
    Calls declared (bench, .reference name site)
      (bench.enter name, .fragmentLines {} fragment.body.lines)
  | refer {bench : Bench} {made : Expansion} {site : Site} {rest : List Site} {name : String}
    (reads : RefersTo site name) :
    Calls declared (bench, .fragmentLines made (site :: rest)) (bench, .reference name site)
  | next {bench left : Bench} {made later : Expansion} {site : Site} {rest : List Site}
    {entries : Journal}
    (taken : made.addLine (compileFragment declared) site bench = ⟨.ok later, left, entries⟩) :
    Calls declared (bench, .fragmentLines made (site :: rest)) (left, .fragmentLines later rest)
  | assemble {bench : Bench} {header : String} {packet : Packet}
    (known : declared.packets.get? (Text.upper header) = some packet)
    (fresh : bench.packets.contains (Text.upper header) = false) :
    Calls declared (bench, .packet header) (bench, .packetLines {} packet.body.lines)
  | packetRefer {bench : Bench} {made : Assembly} {site : Site} {rest : List Site} {name : String}
    (reads : RefersTo site name) :
    Calls declared (bench, .packetLines made (site :: rest)) (bench, .reference name site)
  | packetNext {bench left : Bench} {made later : Assembly} {site : Site} {rest : List Site}
    {entries : Journal}
    (taken : made.addLine (compileFragment declared) site bench = ⟨.ok later, left, entries⟩) :
    Calls declared (bench, .packetLines made (site :: rest)) (left, .packetLines later rest)

/-- The size of a piece of work: the pending fragments first, and then
the lines that are left. -/
def size (declared : Declarations) (piece : Bench × Task) : Nat ×ₗ Nat :=
  toLex ((piece.1.pending declared.fragments).card, piece.2.remaining declared)

/-- The same bench, with at most `room` pending fragments. -/
def Under (fragments : OrderedMap Fragment) (room : Nat) (bench other : Bench) : Prop :=
  bench = other ∧ (other.pending fragments).card ≤ room

theorem compileFragment_under (declared : Declarations) (room : Nat) (name : String) (site : Site) :
    Job.Mirrors (Under declared.fragments room) (compileFragment declared name site)
      (compileFragment declared name site) := by
  rintro bench _ ⟨rfl, bound⟩
  exact ⟨rfl, rfl, rfl, (card_pending_le name site bench).trans bound⟩

/-- Beginning to build a pending fragment leaves fewer of them. -/
theorem card_enter_lt {fragments : OrderedMap Fragment} {bench : Bench} {name : String}
    (declared : name ∈ fragments.keys) (marked : bench.marks name = .pending) :
    ((bench.enter name).pending fragments).card < (bench.pending fragments).card := by
  have inside : name ∈ bench.pending fragments := Bench.mem_pending.mpr ⟨declared, marked⟩
  calc ((bench.enter name).pending fragments).card
      ≤ ((bench.pending fragments).erase name).card :=
        Finset.card_le_card (Bench.pending_enter_subset fragments bench name)
    _ < (bench.pending fragments).card := Finset.card_erase_lt_of_mem inside

theorem size_lt {bench left : Bench} {task inner : Task}
    (fewer : (left.pending declared.fragments).card ≤ (bench.pending declared.fragments).card)
    (shorter : inner.remaining declared < task.remaining declared) :
    size declared (left, inner) < size declared (bench, task) := by
  rw [size, size, Prod.Lex.toLex_lt_toLex]
  rcases Nat.lt_or_eq_of_le fewer with fewer | same
  · exact .inl fewer
  · exact .inr ⟨same, shorter⟩

/-- Every piece of work is smaller than the one it comes from. -/
theorem Calls.smaller {whole part : Bench × Task} (calls : Calls declared whole part) :
    size declared part < size declared whole := by
  cases calls with
  | build known marked =>
    rw [size, size, Prod.Lex.toLex_lt_toLex]
    exact .inl (card_enter_lt (OrderedMap.mem_keys_of_get? known) marked)
  | refer _ => exact size_lt (Nat.le_refl _) (by simp [Task.remaining])
  | @next bench left made later site rest entries taken =>
    have under := Expansion.addLine_mirrors (compileFragment_under declared _) made site bench bench
      ⟨rfl, Nat.le_refl _⟩
    rw [taken] at under
    exact size_lt under.2.2.2 (by simp [Task.remaining])
  | assemble known _ => exact size_lt (Nat.le_refl _) (by simp [Task.remaining, known])
  | packetRefer _ => exact size_lt (Nat.le_refl _) (by simp [Task.remaining])
  | @packetNext bench left made later site rest entries taken =>
    have under := Assembly.addLine_mirrors (compileFragment_under declared _) made site bench bench
      ⟨rfl, Nat.le_refl _⟩
    rw [taken] at under
    exact size_lt under.2.2.2 (by simp [Task.remaining])

/-- However far inside, there are no more pending fragments. -/
theorem card_pending_le_of_calls {whole part : Bench × Task}
    (calls : Relation.TransGen (Calls declared) whole part) :
    (part.1.pending declared.fragments).card ≤ (whole.1.pending declared.fragments).card := by
  have step : ∀ {whole part : Bench × Task}, Calls declared whole part →
      (part.1.pending declared.fragments).card ≤ (whole.1.pending declared.fragments).card := by
    intro whole part calls
    rcases Prod.Lex.toLex_lt_toLex.mp calls.smaller with fewer | ⟨same, _⟩
    · exact Nat.le_of_lt fewer
    · exact Nat.le_of_eq same
  induction calls with
  | single calls => exact step calls
  | tail _ calls ih => exact (step calls).trans ih

/-- No chain of pieces of work is endless. -/
theorem calls_wellFounded (declared : Declarations) :
    WellFounded fun part whole => Calls declared whole part :=
  Subrelation.wf Calls.smaller (InvImage.wf (size declared) wellFounded_lt)

/-! ## What the work depends on -/

/-- The references that a piece of work comes to are followed by `inner`
as they should be. -/
def Serves (declared : Declarations) (inner : String → Site → Job Bench Expansion)
    (piece : Bench × Task) : Prop :=
  ∀ bench name site, Relation.TransGen (Calls declared) piece (bench, .reference name site) →
    inner name site bench = compileFragment declared name site bench

theorem Serves.step {inner : String → Site → Job Bench Expansion} {whole part : Bench × Task}
    (serves : Serves declared inner whole) (calls : Calls declared whole part) :
    Serves declared inner part := by
  intro bench name site later
  exact serves bench name site (.head calls later)

/-- How a line goes on matters only for the line as it is read. -/
theorem readAt_bind_congr {σ α : Type} {state : σ} {site : Site} {next other : BodyLine → Job σ α}
    (same : ∀ line, BodyLine.read site.raw.toList = .ok line → next line state = other line state) :
    (BodyLine.readAt site >>= next) state = (BodyLine.readAt site >>= other) state := by
  unfold BodyLine.readAt
  cases reads : BodyLine.read site.raw.toList with
  | error cause => rfl
  | ok line =>
    simp only [bind_assoc, pure_bind]
    rw [Job.bind_run_ok (show Job.report _ state = ⟨.ok (), state, _⟩ from rfl),
      Job.bind_run_ok (show Job.report _ state = ⟨.ok (), state, _⟩ from rfl), same line reads]

section Asks

variable {inner : String → Site → Job Bench Expansion} {bench : Bench} {site : Site}
  {rest : List Site}

theorem Serves.addLine_fragment {made : Expansion}
    (serves : Serves declared inner (bench, .fragmentLines made (site :: rest))) :
    made.addLine inner site bench = made.addLine (compileFragment declared) site bench := by
  unfold Expansion.addLine
  apply readAt_bind_congr
  intro line reads
  cases line with
  | control line =>
    cases line with
    | fragmentRef name => exact Job.bind_run_congr (serves bench name site (.single (.refer reads)))
    | _ => rfl
  | _ => rfl

theorem Serves.addLine_packet {made : Assembly}
    (serves : Serves declared inner (bench, .packetLines made (site :: rest))) :
    made.addLine inner site bench = made.addLine (compileFragment declared) site bench := by
  unfold Assembly.addLine
  apply readAt_bind_congr
  intro line reads
  cases line with
  | control line =>
    cases line with
    | fragmentRef name =>
      exact Job.bind_run_congr (serves bench name site (.single (.packetRefer reads)))
    | _ => rfl
  | _ => rfl

/-- A reference depends on the references it comes to, and on nothing
else. -/
theorem turn_asks {name : String}
    (serves : Serves declared inner (bench, .reference name site)) :
    turn declared.fragments inner name site bench
      = compileFragment declared name site bench := by
  rw [compileFragment_eq_turn]
  cases known : declared.fragments.get? name with
  | none => rw [turn_undeclared known, turn_undeclared known]
  | some fragment =>
    cases marked : bench.marks name with
    | compiled expansion => rw [turn_compiled known marked, turn_compiled known marked]
    | busy => rw [turn_busy known marked, turn_busy known marked]
    | pending =>
      rw [turn_pending known marked, turn_pending known marked]
      congr 1
      exact Job.foldlM_run_congr
        (fun made rest bench => Serves declared inner (bench, .fragmentLines made rest))
        (fun _ _ _ _ serves => serves.addLine_fragment)
        (fun _ _ _ _ _ _ _ serves taken => serves.step (.next taken)) _
        (serves.step (.build known marked))

/-- A packet that is not known, one that has been compiled, and one whose
lines are read. -/
theorem compilePacketBy_run (header : String) :
    compilePacketBy declared inner header bench
      = match declared.packets.get? (Text.upper header) with
        | none =>
          ⟨.error ((Cause.undeclaredPacket (Text.upper header)).atSite
            ⟨0, Text.upper header⟩), bench, []⟩
        | some packet =>
          if bench.packets.contains (Text.upper header) then ⟨.ok (), bench, []⟩
          else
            (do Job.report
                  [.info packet.line (.packetStarted (Text.upper header) packet.description)]
                let set ← assembleBy inner packet.body
                recordPacket (Text.upper header) set : Job Bench Unit) bench := by
  unfold compilePacketBy
  cases declared.packets.get? (Text.upper header) with
  | none => rfl
  | some packet =>
    cases fresh : bench.packets.contains (Text.upper header) with
    | true => simp [Job.bind_run_ok (show Job.get bench = ⟨.ok bench, bench, []⟩ from rfl), fresh]
    | false => simp [Job.bind_run_ok (show Job.get bench = ⟨.ok bench, bench, []⟩ from rfl), fresh]

/-- A packet depends on the references it comes to, and on nothing
else. -/
theorem compilePacketBy_asks {header : String}
    (serves : Serves declared inner (bench, .packet header)) :
    compilePacketBy declared inner header bench = compilePacket declared header bench := by
  change _ = compilePacketBy declared (compileFragment declared) header bench
  rw [compilePacketBy_run, compilePacketBy_run]
  cases known : declared.packets.get? (Text.upper header) with
  | none => rfl
  | some packet =>
    cases fresh : bench.packets.contains (Text.upper header) with
    | true => rfl
    | false =>
      have lines := Job.foldlM_run_congr
        (fun made rest bench => Serves declared inner (bench, .packetLines made rest))
        (fun _ _ _ _ serves => serves.addLine_packet)
        (fun _ _ _ _ _ _ _ serves taken => serves.step (.packetNext taken)) packet.body.lines
        (serves.step (.assemble known fresh))
      have assembled : assembleBy inner packet.body bench
          = assembleBy (compileFragment declared) packet.body bench := Job.bind_run_congr lines
      dsimp only
      rw [if_neg (by simp), if_neg (by simp),
        Job.bind_run_ok (show Job.report _ bench = ⟨.ok (), bench, _⟩ from rfl),
        Job.bind_run_ok (show Job.report _ bench = ⟨.ok (), bench, _⟩ from rfl),
        Job.bind_run_congr assembled]

end Asks

/-- The same of a packet: references in its lines are never nested deeper
than there are pending fragments. -/
theorem compilePacketBy_iterate (deeper : String → Site → Job Bench Expansion) {levels : Nat}
    {bench : Bench} (more : (bench.pending declared.fragments).card < levels) (header : String) :
    compilePacketBy declared ((turn declared.fragments)^[levels] deeper) header bench
      = compilePacket declared header bench := by
  apply compilePacketBy_asks
  intro later name site calls
  have fewer := card_pending_le_of_calls calls
  exact turn_iterate deeper (fewer.trans_lt more) name site

/-! ## References that return at once -/

/-- The reference is answered without a look at any line: the fragment is
not declared, or it is marked as compiled or as busy. -/
def AtOnce (declared : Declarations) (bench : Bench) (name : String) : Prop :=
  declared.fragments.get? name = none ∨ bench.marks name ≠ .pending

/-- Such a reference leaves everything as it is, and comes to nothing
else. -/
theorem AtOnce.calls {bench : Bench} {name : String} (atOnce : AtOnce declared bench name)
    (site : Site) :
    (compileFragment declared name site bench).state = bench ∧
      ∀ piece, ¬ Calls declared (bench, .reference name site) piece := by
  constructor
  · rw [compileFragment_eq_turn]
    cases known : declared.fragments.get? name with
    | none => rw [turn_undeclared known]
    | some fragment =>
      cases marked : bench.marks name with
      | compiled expansion => rw [turn_compiled known marked]
      | busy => rw [turn_busy known marked]
      | pending =>
        rcases atOnce with unknown | other
        · rw [known] at unknown
          cases unknown
        · exact absurd marked other
  · intro piece calls
    cases calls with
    | build known marked =>
      rcases atOnce with unknown | other
      · rw [known] at unknown
        cases unknown
      · exact other marked

/-- Any other reference begins a pending fragment. -/
theorem card_lt_of_not_atOnce {bench : Bench} {name : String}
    (begins : ¬ AtOnce declared bench name) :
    ((bench.enter name).pending declared.fragments).card
      < (bench.pending declared.fragments).card := by
  simp only [AtOnce, not_or, not_not] at begins
  obtain ⟨known, marked⟩ := begins
  obtain ⟨fragment, known⟩ := Option.ne_none_iff_exists'.mp known
  exact card_enter_lt (OrderedMap.mem_keys_of_get? known) marked

/-! ## All together -/

/-- Compiling ends, whatever is declared and wherever it has come to. A
reference is answered at once, or it begins the lines of a pending
fragment and leaves fewer of them; and when it has been followed, there
are no more of them than before, whether it fails or not. Every piece of
work is smaller than the one it comes from, by the pending fragments and
then by the lines that are left, so no chain of pieces is endless; and a
reference or a packet depends on the references that it comes to in this
way, and on nothing else. So more turns than there are pending fragments
are never taken, and with that many turns fragments and packets are
compiled as they should be, from any results. -/
theorem compiling_ends (declared : Declarations) :
    let pending (bench : Bench) := (bench.pending declared.fragments).card
    let turns (levels : Nat) (deeper : String → Site → Job Bench Expansion) :=
      (turn declared.fragments)^[levels] deeper
    (∀ bench name site,
      (AtOnce declared bench name →
        (compileFragment declared name site bench).state = bench ∧
          ∀ piece, ¬ Calls declared (bench, .reference name site) piece) ∧
      (¬ AtOnce declared bench name → pending (bench.enter name) < pending bench) ∧
      pending (compileFragment declared name site bench).state ≤ pending bench) ∧
    (∀ whole part, Calls declared whole part → size declared part < size declared whole) ∧
    WellFounded (fun part whole => Calls declared whole part) ∧
    (∀ inner bench,
      (∀ name site, Serves declared inner (bench, .reference name site) →
        turn declared.fragments inner name site bench
          = compileFragment declared name site bench) ∧
      ∀ header, Serves declared inner (bench, .packet header) →
        compilePacketBy declared inner header bench = compilePacket declared header bench) ∧
    (∀ bench levels deeper, pending bench < levels →
      (∀ name site, turns levels deeper name site bench
        = compileFragment declared name site bench) ∧
      ∀ header, compilePacketBy declared (turns levels deeper) header bench
        = compilePacket declared header bench) ∧
    ∀ results levels deeper, pending (results.bench declared) < levels →
      (∀ name site,
        let turned := turns levels deeper name site (results.bench declared)
        let compiled := PacketLayout.compileFragment declared name site results
        turned.result = compiled.result ∧ turned.entries = compiled.entries ∧
          turned.state = compiled.state.bench declared) ∧
      ∀ header,
        let turned := compilePacketBy declared (turns levels deeper) header (results.bench declared)
        let compiled := PacketLayout.compilePacket declared header results
        turned.result = compiled.result ∧ turned.entries = compiled.entries ∧
          turned.state = compiled.state.bench declared := by
  intro pending turns
  refine ⟨?_, fun _ _ => Calls.smaller, calls_wellFounded declared, ?_, ?_, ?_⟩
  · intro bench name site
    exact ⟨fun atOnce => atOnce.calls site, card_lt_of_not_atOnce,
      card_pending_le name site bench⟩
  · intro inner bench
    exact ⟨fun _ _ => turn_asks, fun _ => compilePacketBy_asks⟩
  · intro bench levels deeper more
    exact ⟨turn_iterate deeper more, compilePacketBy_iterate deeper more⟩
  · intro results levels deeper more
    constructor
    · intro name site
      dsimp only [turns]
      rw [turn_iterate deeper more]
      exact compileFragment_mirrors name site _ results rfl
    · intro header
      dsimp only [turns]
      rw [compilePacketBy_iterate deeper more]
      exact compilePacket_mirrors header _ results rfl

/-- Of the three fragments, two lie on a ring: four turns come to the end
of it, whatever would be done inside them. -/
theorem compiling_ends_ring :
    (Workspace.ring.bench.pending Workspace.ring.declared.fragments).card < 4 ∧
    ∀ deeper, ((turn Workspace.ring.declared.fragments)^[4] deeper "Start" ⟨8, "Start"⟩
        Workspace.ring.bench).result
      = .error ((Cause.fragmentCycle "Left" ["Start", "Left", "Right", "Left"]).atSite
          ⟨7, "+ Fragment[Left]"⟩) := by
  have few : (Workspace.ring.bench.pending Workspace.ring.declared.fragments).card < 4 := by
    decide +kernel
  obtain ⟨_, _, _, _, _, compiles⟩ := compiling_ends Workspace.ring.declared
  refine ⟨few, fun deeper => ?_⟩
  have turned := (compiles Workspace.ring.results 4 deeper few).1 "Start" ⟨8, "Start"⟩
  rw [Workspace.bench, turned.1]
  decide +kernel

end Marked

end PacketLayout
