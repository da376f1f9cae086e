/-
PacketLayout.Proofs.Expansion.Footprint — what compiling may touch.

Besides coming to a result, compiling does two things. It reports entries,
none of which records a failure, and it keeps the expansions of fragments
that it has come to by following references. An effect that allows both
of them, and adds up, is an effect of the whole work, whether it succeeds
or fails.

* `Footprint`: the effect allows both.
* `resolve_has`, `assemble_has`: the work on fragments and packets.
* `compileDeclared_has`, `compilePacket_has`: compiling declarations.
* `keepsOnly_footprint`: nothing is kept but what can be reached.
-/
import PacketLayout.Proofs.Expansion.References

namespace PacketLayout

open Job Relation Text

variable {σ α : Type}

/-! ## Quiet entries -/

/-- The entry is the record of a failure. -/
def Entry.isFatal (entry : Entry) : Bool :=
  entry.diagnostic?.any Diagnostic.isFatal

/-- The entry records no failure. -/
def Entry.Quiet (entry : Entry) : Prop :=
  entry.isFatal = false

theorem Entry.quiet_info (line : Nat) (what : Progress) : (Entry.info line what).Quiet := rfl

theorem Entry.quiet_warning (line : Nat) (what : Warning) (raw : Option String) :
    (Entry.warning line what raw).Quiet := rfl

theorem Entry.quiet_trace (what : Trace) : (Entry.trace what).Quiet := rfl

/-- No failure is recorded. -/
def Journal.Quiet (journal : Journal) : Prop :=
  ∀ entry ∈ journal, entry.Quiet

theorem Journal.quiet_singleton {entry : Entry} (quiet : entry.Quiet) : Journal.Quiet [entry] :=
  fun _ mem => List.mem_singleton.mp mem ▸ quiet

namespace Assembly

theorem closeBranch_quiet (made : Assembly) :
    (made.closeBranch : Job σ Assembly).Reports Entry.Quiet := by
  unfold closeBranch
  split
  · exact reports_pure
  · dsimp only
    split
    · exact (reports_report (Journal.quiet_singleton (Entry.quiet_warning _ _ _))).bind
        fun _ => reports_pure
    · split
      · exact reports_fail
      · exact reports_pure

theorem openBranch_quiet (made : Assembly) (header : BranchHeader) (site : Site) :
    (made.openBranch header site : Job σ Assembly).Reports Entry.Quiet := by
  unfold openBranch
  split
  · exact reports_fail
  · refine (closeBranch_quiet made).bind fun closed => ?_
    refine reports_ofExcept.bind fun noted => reports_ofExcept.bind fun started => ?_
    exact (reports_report (Journal.quiet_singleton (Entry.quiet_info _ _))).bind
      fun _ => reports_pure

theorem finish_quiet (made : Assembly) :
    (made.finish : Job σ SignatureSet).Reports Entry.Quiet := by
  unfold finish
  split
  · exact reports_fail
  · refine (reports_report ?_).bind fun _ => reports_pure
    intro entry mem
    unfold ignoredBranches at mem
    split at mem
    · rw [List.mem_singleton.mp mem]
      exact Entry.quiet_warning _ _ _
    · cases mem
  · refine (closeBranch_quiet made).bind fun closed => ?_
    refine (reports_report ?_).bind fun _ => reports_pure
    intro entry mem
    unfold missingBranches at mem
    split at mem
    · rw [List.mem_singleton.mp mem]
      exact Entry.quiet_warning _ _ _
    · cases mem

end Assembly

/-! ## Effects of compiling -/

/-- The effect allows what compiling does: to report entries that record no
failure, and to keep expansions of the names in `reach`. -/
structure Footprint (reach : String → Prop) (effect : Effect Expansions) : Prop where
  adds : effect.AddsUp
  reports : ∀ known entries, Journal.Quiet entries → effect known entries known
  keeps : ∀ known name expansion, reach name → effect known [] (known.insert name expansion)

section Lines

variable {reach : String → Prop} {effect : Effect Expansions}
  {find : String → Site → Job Expansions Expansion} {site : Site}

/-- Work that leaves the expansions alone. -/
theorem Footprint.still (foot : Footprint reach effect) {job : Job Expansions α}
    (quiet : job.Reports Entry.Quiet) (still : ∀ known, (job known).state = known) :
    job.Has effect := by
  intro known
  rw [still known]
  exact foot.reports known _ (quiet known)

theorem Footprint.report (foot : Footprint reach effect) {entry : Entry} (quiet : entry.Quiet) :
    (report [entry] : Job Expansions Unit).Has effect :=
  has_report fun known => foot.reports known _ (Journal.quiet_singleton quiet)

/-- A line that is read refers to the name that its form says. -/
theorem Site.form_of_read {line : BodyLine} (read : BodyLine.read site.raw.toList = .ok line) :
    site.form = line := by
  rw [Site.form, read]

/-- Reading a line reports its remarks, and what is done with it follows its
form. -/
theorem readAt_bind_has (foot : Footprint reach effect) {next : BodyLine → Job Expansions α}
    (later : (next site.form).Has effect) : (BodyLine.readAt site >>= next).Has effect := by
  unfold BodyLine.readAt
  cases read : BodyLine.read site.raw.toList with
  | error cause => exact has_fail foot.adds
  | ok line =>
    rw [Site.form_of_read read] at later
    dsimp only
    rw [bind_assoc]
    refine (has_report fun known => foot.reports known _ ?_).bind foot.adds fun _ => later
    intro entry mem
    obtain ⟨remark, _, rfl⟩ := List.mem_map.mp mem
    exact Entry.quiet_warning _ _ _

theorem Expansion.addLine_has (foot : Footprint reach effect)
    (found : ∀ name, site.form.reference? = some name → (find name site).Has effect)
    (made : Expansion) : (addLine find made site).Has effect := by
  refine readAt_bind_has foot ?_
  split
  · exact has_pure foot.adds
  · rename_i name form
    exact (found name (by rw [form]; rfl)).bind foot.adds fun _ => has_pure foot.adds
  · exact has_pure foot.adds
  · exact has_pure foot.adds
  · exact has_fail foot.adds

theorem Assembly.addLine_has (foot : Footprint reach effect)
    (found : ∀ name, site.form.reference? = some name → (find name site).Has effect)
    (made : Assembly) : (addLine find made site).Has effect := by
  refine readAt_bind_has foot ?_
  split
  · exact has_pure foot.adds
  · exact foot.still (openBranch_quiet made _ site) fun known =>
      (openBranch_ends made _ site known).2
  · rename_i name form
    exact (found name (by rw [form]; rfl)).bind foot.adds fun _ => has_pure foot.adds
  · exact has_ofExcept foot.adds
  · exact has_ofExcept foot.adds
  · exact has_ofExcept foot.adds
  · exact has_ofExcept foot.adds
  · exact has_fail foot.adds

end Lines

/-! ## Fragments and packets -/

section Work

variable {reach : String → Prop} {effect : Effect Expansions} {fragments : OrderedMap Fragment}

/-- A resolution keeps only what can be reached from the name. -/
theorem resolve_has (foot : Footprint reach effect) (path : List String) (name : String)
    (site : Site) (within : ∀ inner, ReflTransGen (Refers fragments) name inner → reach inner) :
    (resolve fragments path name site).Has effect := by
  induction path using offPath_induction fragments.keys generalizing name site with
  | step path ih =>
    rw [resolve_eq]
    cases declared : fragments.get? name with
    | none => exact has_fail foot.adds
    | some fragment =>
      have lines : ∀ site ∈ fragment.body.lines, ∀ inner, site.form.reference? = some inner →
          name ∉ path → (resolve fragments (path ++ [name]) inner site).Has effect := by
        intro place mem inner ref off
        have step : Refers fragments name inner :=
          ⟨fragment, declared, Body.mem_references.mpr ⟨place, mem, ref⟩⟩
        exact ih name (OrderedMap.mem_keys_of_get? declared) off inner place fun last way =>
          within last (.head step way)
      refine has_get_bind fun known => ?_
      cases known.get? name with
      | some expansion => exact foot.adds.nothing known
      | none =>
        by_cases again : name ∈ path ∨ fragment.busy = true
        · simp only [if_pos again]
          exact foot.adds.nothing known
        · have off : name ∉ path := fun mem => again (.inl mem)
          simp only [if_neg again]
          refine Has.bind foot.adds (foot.report (Entry.quiet_info _ _)) (fun _ => ?_) known
          refine (Has.foldlM foot.adds (fun made place mem =>
            Expansion.addLine_has foot (fun inner ref => lines place mem inner ref off) made)
            {}).bind foot.adds fun expansion => ?_
          refine (foot.report (Entry.quiet_trace _)).bind foot.adds fun _ => ?_
          exact has_get_bind fun found => foot.keeps found name expansion (within name .refl)

/-- The work on a packet keeps only what can be reached from its lines. -/
theorem assemble_has (foot : Footprint reach effect) {body : Body}
    (within : ∀ name, body.Reaches fragments name → reach name) :
    (assemble fragments body).Has effect := by
  refine (Has.foldlM foot.adds (fun made site mem =>
    Assembly.addLine_has foot (fun name ref => ?_) made) {}).bind foot.adds fun made =>
      foot.still (made.finish_quiet) fun known => (made.finish_ends known).2
  refine resolve_has foot [] name site fun inner way => within inner ⟨name, ?_, way⟩
  exact Body.mem_references.mpr ⟨site, mem, ref⟩

end Work

/-! ## Declarations -/

section Compiling

variable {reach : String → Prop} {effect : Effect Expansions} {declared : Declarations}

/-- The effect on the expansions among the results. -/
def Job.Effect.onExpansions (effect : Effect Expansions) : Effect Results :=
  fun before entries after => effect before.expansions entries after.expansions

theorem Footprint.addsUp (foot : Footprint reach effect) : effect.onExpansions.AddsUp where
  nothing results := foot.adds.nothing results.expansions
  both one two := foot.adds.both one two

theorem onExpansions_has {job : Job Expansions α} (h : job.Has effect) :
    (onExpansions job).Has effect.onExpansions :=
  Has.zoom h fun _ _ _ here => here

/-- Compiling a fragment keeps only what can be reached from it. -/
theorem compileDeclared_has (foot : Footprint reach effect) {fragment : Fragment}
    (within : ∀ name, ReflTransGen (Refers declared.fragments) fragment.name name → reach name) :
    (compileDeclared declared fragment).Has effect.onExpansions :=
  (onExpansions_has (resolve_has foot [] fragment.name _ within)).bind foot.addsUp fun _ =>
    has_pure foot.addsUp

/-- Compiling a packet keeps only what can be reached from it. -/
theorem compilePacket_has (foot : Footprint reach effect) {header : String}
    (within : ∀ packet, declared.packets.get? (upper header) = some packet →
      ∀ name, packet.body.Reaches declared.fragments name → reach name) :
    (compilePacket declared header).Has effect.onExpansions := by
  have silent : ∀ {entries : Journal}, Journal.Quiet entries →
      (report entries : Job Results Unit).Has effect.onExpansions := fun quiet =>
    has_report fun results => foot.reports results.expansions _ quiet
  unfold compilePacket
  dsimp only
  cases found : declared.packets.get? (upper header) with
  | none => exact has_fail foot.addsUp
  | some packet =>
    refine has_get_bind fun results => ?_
    split
    · exact foot.addsUp.nothing results
    · refine Has.bind foot.addsUp (silent (Journal.quiet_singleton (Entry.quiet_info _ _)))
        (fun _ => ?_) results
      refine (onExpansions_has (assemble_has foot (within packet found))).bind foot.addsUp
        fun set => (silent ?_).bind foot.addsUp fun _ =>
          has_get_bind fun results => foot.addsUp.nothing results
      intro entry mem
      obtain ⟨key, _, rfl⟩ := List.mem_map.mp mem
      exact Entry.quiet_trace _

end Compiling

/-! ## What is kept -/

/-- Only expansions of the names in `reach` are kept beyond those that were
there. -/
def keepsOnly (reach : String → Prop) : Effect Expansions :=
  fun before _ after =>
    ∀ name, before.get? name = none → after.get? name ≠ none → reach name

theorem keepsOnly_footprint (reach : String → Prop) : Footprint reach (keepsOnly reach) where
  adds := {
    nothing := fun _ _ fresh kept => absurd fresh kept
    both := fun {first middle last _ _} one two name fresh kept => by
      by_cases between : middle.get? name = none
      · exact two name between kept
      · exact one name fresh between }
  reports _ _ _ _ fresh kept := absurd fresh kept
  keeps known name expansion there other fresh kept := by
    rw [OrderedMap.get?_insert] at kept
    split at kept
    · rename_i same
      exact same ▸ there
    · exact absurd fresh kept

end PacketLayout
