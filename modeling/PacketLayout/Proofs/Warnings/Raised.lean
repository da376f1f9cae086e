/-
PacketLayout.Proofs.Warnings.Raised — every warning is raised once.

Warnings are reported while lines are read, and a line is read when the
fragment or packet it stands in is built. A fragment is built when it is
first referred to, wherever that is, and never again. So the warnings of
work along the way are its own and those of the fragments that it was the
first to keep: `Accounts` says so, and it adds up. When everything has been
compiled, each fragment has been kept once, and every warning has been
reported once.

* `resolve_accounts`: a resolution reports nothing but the warnings of the
  fragments it keeps.
* `assemble_accounts`: a packet reports its own besides.
* `compileInOrder_accounts`: compiling everything.
-/
import PacketLayout.Proofs.FirstFailure
import PacketLayout.Proofs.Warnings.Branches

namespace PacketLayout

open Job Outline Text

variable {σ : Type}

/-! ## Accounts -/

/-- The warnings that are called for by what stands under a name. -/
def OrderedMap.calledFor {α : Type} (warnings : α → List Diagnostic) (map : OrderedMap α)
    (key : String) : List Diagnostic :=
  (map.get? key).elim [] warnings

theorem OrderedMap.flatMap_keys {α : Type} (warnings : α → List Diagnostic)
    (map : OrderedMap α) :
    map.keys.flatMap (map.calledFor warnings) = map.values.flatMap warnings := by
  rw [keys, values, List.flatMap_map, List.flatMap_map]
  refine List.flatMap_congr fun entry mem => ?_
  rw [calledFor, get?_of_mem_entries mem]
  rfl

/-- The two inner ones of four lists change places. -/
theorem perm_append_middle {α : Type} (first second third last : List α) :
    ((first ++ second) ++ (third ++ last)).Perm ((first ++ third) ++ (second ++ last)) := by
  rw [List.append_assoc, List.append_assoc]
  exact List.Perm.append_left first (List.perm_append_comm_assoc second third last)

/-- Work along `path`, with warnings of its `own`, has reported these and,
for each expansion that it has newly kept, those of the fragment. None of
the names on the path is among them. -/
def Accounts (fragments : OrderedMap Fragment) (path : List String) (own : List Diagnostic)
    (before : Expansions) (entries : Journal) (after : Expansions) : Prop :=
  ∃ new, after.keys = before.keys ++ new ∧ (∀ name ∈ new, name ∉ path) ∧
    entries.warnings.Perm (own ++ new.flatMap (fragments.calledFor Fragment.warnings))

namespace Accounts

variable {fragments : OrderedMap Fragment} {path : List String} {own more : List Diagnostic}
  {before middle after : Expansions} {entries further : Journal}

/-- Nothing is kept. -/
theorem still (reported : entries.warnings = own) :
    Accounts fragments path own before entries before :=
  ⟨[], by simp, by simp, by simp [reported]⟩

theorem trans (first : Accounts fragments path own before entries middle)
    (next : Accounts fragments path more middle further after) :
    Accounts fragments path (own ++ more) before (entries ++ further) after := by
  obtain ⟨new, keys, off, reported⟩ := first
  obtain ⟨newer, keysNext, offNext, reportedNext⟩ := next
  refine ⟨new ++ newer, by rw [keysNext, keys, List.append_assoc], fun name mem => ?_, ?_⟩
  · exact (List.mem_append.mp mem).elim (off name) (offNext name)
  · rw [Journal.warnings_append, List.flatMap_append]
    exact (reported.append reportedNext).trans (perm_append_middle ..)

/-- Entries that are no warnings may come before and behind. -/
theorem between (h : Accounts fragments path own before entries after) {earlier later : Journal}
    (silent : earlier.warnings = []) (also : later.warnings = []) :
    Accounts fragments path own before (earlier ++ (entries ++ later)) after := by
  obtain ⟨new, keys, off, reported⟩ := h
  refine ⟨new, keys, off, ?_⟩
  rw [Journal.warnings_append, Journal.warnings_append, silent, also, List.nil_append,
    List.append_nil]
  exact reported

theorem perm (h : Accounts fragments path own before entries after) (same : own.Perm more) :
    Accounts fragments path more before entries after := by
  obtain ⟨new, keys, off, reported⟩ := h
  exact ⟨new, keys, off, reported.trans (same.append_right _)⟩

/-- What was built of the lines of a fragment is kept. Its own warnings are
then among those of the fragments. -/
theorem keep {name : String} {fragment : Fragment} {expansion : Expansion}
    (h : Accounts fragments (path ++ [name]) fragment.warnings before entries after)
    (declared : fragments.get? name = some fragment) (fresh : before.get? name = none)
    (off : name ∉ path) :
    Accounts fragments path [] before entries (after.insert name expansion) := by
  obtain ⟨new, keys, away, reported⟩ := h
  have absent : name ∉ after.keys := by
    rw [keys, List.mem_append, not_or]
    exact ⟨OrderedMap.get?_eq_none_iff.mp fresh, fun mem => away name mem (by simp)⟩
  refine ⟨new ++ [name], ?_, fun other mem => ?_, ?_⟩
  · rw [OrderedMap.keys_insert_of_not_mem expansion absent, keys, List.append_assoc]
  · rcases List.mem_append.mp mem with mem | mem
    · exact fun there => away other mem (by simp [there])
    · rw [List.mem_singleton.mp mem]
      exact off
  · have last : fragments.calledFor Fragment.warnings name = fragment.warnings := by
      rw [OrderedMap.calledFor, declared]
      rfl
    rw [List.nil_append, List.flatMap_append, List.flatMap_singleton, last]
    exact reported.trans List.perm_append_comm

end Accounts

/-! ## Lines -/

/-- Reading a line reports its warnings. -/
theorem BodyLine.readAt_yields (site : Site) (state : σ) :
    (readAt site : Job σ BodyLine).Yields state fun line left entries =>
      line = site.form ∧ left = state ∧ entries.warnings = site.warnings := by
  unfold readAt
  have remarks := site.remarks_form
  cases read : BodyLine.read site.raw.toList with
  | error cause => exact yields_fail
  | ok line =>
    rw [Site.form_of_read read] at remarks
    refine yields_report_bind (yields_pure ⟨(Site.form_of_read read).symm, rfl, ?_⟩)
    rw [List.append_nil, Site.warnings, ← remarks]
    induction line.remarks with
    | nil => rfl
    | cons remark rest ih =>
      rw [List.map_cons, List.map_cons, ← ih]
      rfl

/-- What is done with a line that has been read. -/
theorem readAt_bind_accounts {α : Type} {fragments : OrderedMap Fragment} {path : List String}
    {own : List Diagnostic} {site : Site} {next : BodyLine → Job Expansions α} {known : Expansions}
    (later : (next site.form).Yields known fun _ after entries =>
      Accounts fragments path own known entries after) :
    (BodyLine.readAt site >>= next).Yields known fun _ after entries =>
      Accounts fragments path (site.warnings ++ own) known entries after := by
  refine Yields.bind ((BodyLine.readAt_yields site known).imp fun line left entries read => ?_)
  obtain ⟨rfl, rfl, reported⟩ := read
  exact later.imp fun _ _ _ accounts => (Accounts.still reported).trans accounts

/-! ## Fragments -/

section Fragments

variable {fragments : OrderedMap Fragment} {path : List String}

theorem Expansion.addLine_accounts {find : String → Site → Job Expansions Expansion}
    (found : ∀ name site known, (find name site).Yields known fun _ after entries =>
      Accounts fragments path [] known entries after)
    (made : Expansion) (site : Site) (known : Expansions) :
    (addLine find made site).Yields known fun _ after entries =>
      Accounts fragments path site.warnings known entries after := by
  rw [← List.append_nil site.warnings]
  refine readAt_bind_accounts ?_
  split
  · exact yields_pure (.still rfl)
  · refine Yields.bind ((found _ site known).imp fun nested after entries accounts => ?_)
    exact yields_pure (by rwa [List.append_nil])
  · exact yields_pure (.still rfl)
  · exact yields_pure (.still rfl)
  · exact yields_fail

/-- A resolution reports the warnings of the fragments that it keeps, each
once, and no others. -/
theorem resolve_accounts (path : List String) (name : String) (site : Site) (known : Expansions) :
    (resolve fragments path name site).Yields known fun _ after entries =>
      Accounts fragments path [] known entries after := by
  induction path using offPath_induction fragments.keys generalizing name site known with
  | step path ih =>
    rw [resolve_eq]
    cases declared : fragments.get? name with
    | none => exact yields_fail
    | some fragment =>
      refine yields_get_bind ?_
      cases fresh : known.get? name with
      | some expansion => exact yields_pure (.still rfl)
      | none =>
        by_cases again : name ∈ path ∨ fragment.busy = true
        · simp only [if_pos again]
          exact yields_fail
        · have off : name ∉ path := fun mem => again (.inl mem)
          have inner := ih name (OrderedMap.mem_keys_of_get? declared) off
          have lines : (fragment.body.lines.foldlM
              (Expansion.addLine (resolve fragments (path ++ [name]))) {}).Yields known
              fun _ after entries =>
                Accounts fragments (path ++ [name]) fragment.warnings known entries after := by
            refine yields_foldlM (fun done _ state entries =>
              Accounts fragments (path ++ [name]) (done.flatMap Site.warnings) known entries state)
              (fun done place _ made state entries _ here => ?_) (.still rfl)
            refine (Expansion.addLine_accounts inner made place state).imp fun _ _ _ next => ?_
            rw [List.flatMap_append, List.flatMap_singleton]
            exact here.trans next
          simp only [if_neg again]
          refine yields_report_bind (Yields.bind (lines.imp fun _ after entries built => ?_))
          refine yields_report_bind (yields_get_bind (yields_set_bind (yields_pure ?_)))
          exact (built.keep declared fresh off).between rfl rfl

/-! ## Packets -/

namespace Assembly

theorem closeBranch_yields (made : Assembly) (state : σ) :
    (made.closeBranch : Job σ Assembly).Yields state fun closed left entries =>
      closed = made.withClosed ∧ left = state ∧ entries.warnings = made.closingWarnings := by
  unfold closeBranch closingWarnings
  cases opened : made.current with
  | none => exact yields_pure ⟨(withClosed_of_idle opened).symm, rfl, rfl⟩
  | some branch =>
    dsimp only
    cases blank : branch.signature.isBlank with
    | true =>
      refine yields_report_bind (yields_pure ⟨(withClosed_of_blank opened blank).symm, rfl, ?_⟩)
      simp only [Option.toList_some, List.filter_cons, blank]
      rfl
    | false =>
      simp only [Bool.false_eq_true, if_false]
      split
      · exact yields_fail
      · refine yields_pure ⟨(withClosed_of_filled opened blank).symm, rfl, ?_⟩
        simp only [Option.toList_some, List.filter_cons, blank]
        rfl

theorem openBranch_yields (made : Assembly) (header : BranchHeader) (site : Site) (state : σ) :
    (made.openBranch header site : Job σ Assembly).Yields state fun _ left entries =>
      left = state ∧ entries.warnings = made.closingWarnings := by
  unfold openBranch
  cases made.openRepeat with
  | some opened => exact yields_fail
  | none =>
    dsimp only
    refine Yields.bind ((closeBranch_yields made state).imp fun closed left entries told => ?_)
    obtain ⟨rfl, rfl, told⟩ := told
    refine yields_ofExcept_bind fun noted _ => yields_ofExcept_bind fun started _ => ?_
    refine yields_report_bind (yields_pure ⟨rfl, ?_⟩)
    rw [Journal.warnings_append, told]
    exact List.append_nil _

theorem finish_yields (made : Assembly) (state : σ) :
    (made.finish : Job σ SignatureSet).Yields state fun _ left entries =>
      left = state ∧ entries.warnings = made.endingWarnings := by
  unfold finish endingWarnings
  cases made.openRepeat with
  | some opened => exact yields_fail
  | none =>
    cases made.placeholder with
    | none =>
      refine yields_report_bind (yields_pure ⟨rfl, ?_⟩)
      unfold ignoredBranches
      cases made.current <;> rfl
    | some line =>
      dsimp only
      refine Yields.bind ((closeBranch_yields made state).imp fun closed left entries told => ?_)
      obtain ⟨rfl, rfl, told⟩ := told
      refine yields_report_bind (yields_pure ⟨rfl, ?_⟩)
      rw [List.append_nil, Journal.warnings_append, told, missingBranches]
      split <;> rfl

/-- A line of a packet reports its own warnings, those of the branch that
it closes, and those of the fragments that are kept for it. -/
theorem addLine_accounts (made : Assembly) (site : Site) (known : Expansions) :
    (addLine (resolve fragments []) made site).Yields known fun _ after entries =>
      Accounts fragments [] (site.warnings ++ made.openingWarnings site) known entries after := by
  refine readAt_bind_accounts ?_
  unfold openingWarnings
  cases site.form with
  | field line => exact yields_pure (.still rfl)
  | branch header =>
    refine (openBranch_yields made header site known).imp fun _ left entries told => ?_
    obtain ⟨rfl, told⟩ := told
    exact .still told
  | unrecognized => exact yields_fail
  | control line =>
    cases line with
    | fragmentRef name =>
      refine Yields.bind ((resolve_accounts [] name site known).imp
        fun expansion after entries accounts => ?_)
      exact yields_pure (by rwa [List.append_nil])
    | _ => exact yields_ofExcept fun _ _ => .still rfl

end Assembly

/-- What is found for a name does not depend on the place of the
reference. -/
theorem exists_flat (given : Expansions) (fragments : OrderedMap Fragment) (path : List String) :
    ∃ flat : String → Expansion, ∀ name site found,
      expandGiven given fragments path name site = .ok found → found = flat name := by
  refine ⟨fun name => (expandGiven given fragments path name ⟨0, name⟩).toOption.getD {},
    fun name site found h => ?_⟩
  have anywhere := expandGiven_site ⟨0, name⟩ h
  dsimp only
  rw [anywhere]
  rfl

/-- The lines of a packet report their own warnings, and tell of the blank
branches before the last one. -/
theorem Assembly.foldlM_addLine_accounts (lines : List Site) (known : Expansions) :
    (lines.foldlM (addLine (resolve fragments [])) {}).Yields known fun made after entries =>
      lines.foldlM (step (expandGiven known fragments [])) {} = .ok made ∧
        Accounts fragments []
          (lines.flatMap Site.warnings ++ blankWarnings (sitedBranches lines).dropLast)
          known entries after := by
  obtain ⟨flat, flattens⟩ := exists_flat known fragments []
  refine (yields_foldlM (fun done made state entries => Grown fragments known state ∧
    done.foldlM (step (expandGiven known fragments [])) {} = .ok made ∧
    Accounts fragments []
      (done.flatMap Site.warnings ++ blankWarnings (sitedBranches done).dropLast)
      known entries state) ?_ ⟨.refl, rfl, .still rfl⟩).imp fun _ _ _ known => known.2
  rintro done site rest made state entries _ ⟨grown, run, here⟩
  have stepped : (addLine (resolve fragments []) made site).Yields state fun later after _ =>
      made.step (expandGiven known fragments []) site = .ok later ∧ Grown fragments state after :=
    (addLine_ends grown made site).yields fun _ _ _ ends => ⟨ends.1.symm, ends.2.1⟩
  refine (stepped.and (addLine_accounts made site state)).imp fun later after more next => ?_
  obtain ⟨⟨taken, further⟩, accounts⟩ := next
  refine ⟨grown.trans further, ?_, (here.trans accounts).perm ?_⟩
  · rw [List.foldlM_append, run]
    exact Except.bind_eq_ok_iff.mpr ⟨made, rfl, by simpa using taken⟩
  · -- the warnings of the line go to those of the lines, the others to those of the branches
    rw [List.flatMap_append, List.flatMap_singleton,
      blankWarnings_concat (sited_of_foldlM run) (follows_of_foldlM flattens run).branches]
    exact perm_append_middle ..

/-- A packet reports its own warnings, and those of the fragments that are
kept for it. -/
theorem assemble_accounts (packet : Packet) (known : Expansions) :
    (assemble fragments packet.body).Yields known fun _ after entries =>
      Accounts fragments [] packet.warnings known entries after := by
  obtain ⟨flat, flattens⟩ := exists_flat known fragments []
  refine Yields.bind ((Assembly.foldlM_addLine_accounts packet.body.lines known).imp
    fun made middle entries lines => ?_)
  obtain ⟨run, accounts⟩ := lines
  refine (made.finish_yields middle).imp fun _ after more told => ?_
  obtain ⟨rfl, told⟩ := told
  rw [Packet.warnings, Assembly.branchWarnings_eq (Assembly.sited_of_foldlM run)
    (Assembly.follows_of_foldlM flattens run).branches, ← List.append_assoc]
  exact accounts.trans (.still told)

end Fragments

/-! ## Everything -/

section Everything

variable {declared : Declarations}

theorem compileDeclared_accounts (declared : Declarations) (fragment : Fragment)
    (results : Results) :
    (compileDeclared declared fragment).Yields results fun _ after entries =>
      after.packets = results.packets ∧
        Accounts declared.fragments [] [] results.expansions entries after.expansions := by
  unfold compileDeclared compileFragment onExpansions
  refine Yields.bind (Yields.zoom ((resolve_accounts [] fragment.name _ _).imp
    fun expansion after entries accounts => ?_))
  exact yields_pure ⟨rfl, by rwa [List.append_nil]⟩

theorem recordPacket_yields (header : String) (set : SignatureSet) (results : Results) :
    (recordPacket header set).Yields results fun _ after entries =>
      after.expansions = results.expansions ∧ entries.warnings = [] := by
  unfold recordPacket
  refine yields_report_bind (yields_get_bind fun _ _ => ⟨rfl, ?_⟩)
  rw [Journal.warnings_append]
  induction set.keys with
  | nil => rfl
  | cons key rest ih => exact ih

/-- The packet has not been compiled before. -/
theorem compilePacket_accounts {header : String} {packet : Packet} {results : Results}
    (capital : upper header = header) (found : declared.packets.get? header = some packet)
    (fresh : results.packets.get? header = none) :
    (compilePacket declared header).Yields results fun _ after entries =>
      Accounts declared.fragments [] packet.warnings results.expansions entries
        after.expansions := by
  have absent : results.packets.contains header = false := by
    simp [OrderedMap.contains, fresh]
  unfold compilePacket
  simp only [capital, found]
  refine yields_get_bind ?_
  simp only [absent, Bool.false_eq_true, if_false]
  refine yields_report_bind (Yields.bind (Yields.zoom ((assemble_accounts packet _).imp
    fun set middle entries accounts => ?_)))
  refine (recordPacket_yields header set _).imp fun _ after more silent => ?_
  obtain ⟨same, silent⟩ := silent
  rw [same]
  exact accounts.between rfl silent

theorem compileFragments_accounts (declared : Declarations) (fragments : List Fragment)
    (start : Results) :
    (fragments.forM (compileDeclared declared)).Yields start fun _ after entries =>
      after.packets = start.packets ∧
        Accounts declared.fragments [] [] start.expansions entries after.expansions := by
  refine yields_forM (fun _ (state : Results) entries => state.packets = start.packets ∧
    Accounts declared.fragments [] [] start.expansions entries state.expansions)
    ?_ ⟨rfl, .still rfl⟩
  rintro _ fragment _ state entries _ ⟨packets, here⟩
  refine (compileDeclared_accounts declared fragment state).imp fun _ after more next => ?_
  exact ⟨next.1.trans packets, here.trans next.2⟩

/-- The packets have not been compiled before, so each one reports its own
warnings. -/
theorem compilePackets_accounts (capital : declared.Capital) {start : Results}
    (fresh : start.packets = ∅) :
    (declared.packets.keys.forM (compilePacket declared)).Yields start fun _ after entries =>
      Accounts declared.fragments [] (declared.packets.values.flatMap Packet.warnings)
        start.expansions entries after.expansions := by
  rw [← OrderedMap.flatMap_keys]
  refine (yields_forM (fun done (state : Results) entries =>
    (∀ header, state.packets.get? header ≠ none → header ∈ done) ∧
      Accounts declared.fragments [] (done.flatMap (declared.packets.calledFor Packet.warnings))
        start.expansions entries state.expansions)
    ?_ ⟨fun header kept => ?_, .still rfl⟩).imp fun _ _ _ known => known.2
  · rintro done header rest state entries split ⟨only, here⟩
    have key : header ∈ declared.packets.keys := by simp [split]
    obtain ⟨packet, found⟩ := Option.isSome_iff_exists.mp (OrderedMap.contains_iff.mpr key)
    have distinct := declared.packets.nodup
    change declared.packets.keys.Nodup at distinct
    rw [split] at distinct
    have new : state.packets.get? header = none := by
      refine Classical.byContradiction fun kept => ?_
      exact (List.nodup_append.mp distinct).2.2 _ (only header kept) _ (by simp) rfl
    have others : (compilePacket declared header).Yields state fun _ after _ =>
        ∀ other, other ≠ header → after.packets.get? other = state.packets.get? other :=
      (compilePacket_others (capital header key) state).yields fun _ _ _ same => same
    refine (others.and (compilePacket_accounts (capital header key) found new)).imp
      fun _ after more next => ?_
    obtain ⟨same, accounts⟩ := next
    refine ⟨fun other kept => ?_, ?_⟩
    · by_cases this : other = header
      · simp [this]
      · rw [same other this] at kept
        exact List.mem_append_left _ (only other kept)
    · rw [List.flatMap_append, List.flatMap_singleton, OrderedMap.calledFor, found]
      exact here.trans accounts
  · rw [fresh] at kept
    exact absurd rfl kept

/-- If everything can be compiled from nothing, all warnings have been
reported, each once. -/
theorem compileAll_warnings (regular : declared.Regular) :
    (compileAll declared).Yields {} fun _ _ entries =>
      entries.warnings.Perm declared.warnings := by
  have inOrder : (compileInOrder declared).Yields {} fun _ after entries =>
      Accounts declared.fragments [] (declared.packets.values.flatMap Packet.warnings) ∅
        entries after.expansions := by
    refine Yields.bind ((compileFragments_accounts declared _ {}).imp
      fun _ middle entries fragments => ?_)
    obtain ⟨fresh, compiled⟩ := fragments
    exact (compilePackets_accounts regular.capital fresh).imp fun _ after more packets =>
      compiled.trans packets
  have all : (compileAll declared).Yields {} fun _ after _ =>
      ∀ fragment ∈ declared.fragments.values,
        ∃ expansion, after.expansions.get? fragment.name = some expansion :=
    (compileAll_fragments declared {}).yields fun _ _ _ known => known rfl
  have grown : (compileAll declared).Yields {} fun _ after _ =>
      Grown declared.fragments ∅ after.expansions :=
    (compileAll_ends declared {}).yields fun _ _ _ known => known.2.1.grown
  refine (inOrder.recordingFailure.and (all.and grown)).imp fun _ after entries known => ?_
  obtain ⟨⟨new, keys, _, reported⟩, all, grown⟩ := known
  have once : new.Perm declared.fragments.keys := by
    have same : after.expansions.keys = new := keys
    refine (List.perm_ext_iff_of_nodup (same ▸ after.expansions.nodup)
      declared.fragments.nodup).mpr fun name => ⟨fun mem => ?_, fun mem => ?_⟩
    · rw [← same] at mem
      obtain ⟨expansion, kept⟩ := Option.isSome_iff_exists.mp (OrderedMap.contains_iff.mpr mem)
      obtain ⟨fragment, found⟩ := grown.declared_of_kept kept
      exact OrderedMap.mem_keys_of_get? found
    · obtain ⟨entry, there, rfl⟩ := List.mem_map.mp mem
      obtain ⟨expansion, kept⟩ := all entry.2 (List.mem_map_of_mem there)
      rw [← same, regular.named.fragments entry there]
      exact OrderedMap.mem_keys_of_get? kept
  refine reported.trans (List.perm_append_comm.trans (List.Perm.append_right _ ?_))
  rw [← OrderedMap.flatMap_keys]
  exact once.flatMap_right _

end Everything

end PacketLayout
