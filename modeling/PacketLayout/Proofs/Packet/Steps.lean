/-
PacketLayout.Proofs.Packet.Steps — the work on a packet without state
and journal.

Apart from the expansions it keeps, the work on a packet only reports
and fails. `take`, `closed`, `opened` and `finished` say what each line
and the end of the packet come to, as plain functions; `assembled` is
the whole packet, where `expand` says what the fragments come to.

* `assemble_ends`: with the kept expansions it starts on, the work on a
  packet comes to what `assembled` says, keeps expansions by `Grown`, and
  has kept all that it needed when it succeeds.
* `step_eq_ok_iff`: a line is taken in if it is read, if the fragment it
  refers to is found, and if its form fits.
-/
import PacketLayout.Assembly
import PacketLayout.Proofs.Expansion.Keeping

namespace PacketLayout

open Text

/-! ## Forms of lines -/

/-- What a line of a body is; a line that cannot be read has no known
form. -/
def Site.form (site : Site) : BodyLine :=
  match BodyLine.read site.raw.toList with
  | .ok line => line
  | .error _ => .unrecognized

/-- What a line takes from a fragment, where `expand` says what the
fragments come to. -/
def BodyLine.part (expand : String → Site → Except Failure Expansion) (site : Site) :
    BodyLine → Except Failure Expansion
  | .control (.fragmentRef name) => expand name site
  | _ => .ok {}

namespace Assembly

variable {σ : Type}

/-! ## Plain steps -/

/-- What finishing the open branch comes to. -/
def closed (made : Assembly) : Except Failure Assembly :=
  match made.current with
  | none => .ok made
  | some branch =>
    if branch.signature.isBlank then .ok { made with current := none }
    else if made.branches.any fun other =>
        other.signature.render == branch.signature.render then
      .error ((Cause.duplicateBranchSignature branch.signature.render).atSite branch.site)
    else .ok { made with current := none, branches := made.branches ++ [branch] }

/-- What opening a branch comes to. -/
def opened (made : Assembly) (header : BranchHeader) (site : Site) :
    Except Failure Assembly :=
  match made.openRepeat with
  | some opened => .error (Cause.unclosedRepeat.atSite opened)
  | none =>
    made.closed.bind fun closed =>
    (closed.noteDescription header.description site).bind fun noted =>
    noted.startBranch { description := header.description, site } header.discriminator

/-- What the end of the packet comes to. -/
def finished (made : Assembly) : Except Failure SignatureSet :=
  match made.openRepeat, made.placeholder with
  | some opened, _ => .error (Cause.unclosedRepeat.atSite opened)
  | none, none => .ok made.mainEntry
  | none, some _ => made.closed.map branchEntries

/-- What a line of a known form comes to, with the part it takes from a
fragment. -/
def take (made : Assembly) (site : Site) (part : Expansion) :
    BodyLine → Except Failure Assembly
  | .field line => .ok (made.add line.token line.field)
  | .branch header => made.opened header site
  | .control (.fragmentRef _) => .ok (made.splice part)
  | .control .placeholder => made.addPlaceholder site
  | .control .repeatStart => made.startRepeat site
  | .control .repeatEnd => made.endRepeat site
  | .control .pack => made.pack
  | .unrecognized => .error ((Cause.invalidCode .packet).atSite site)

/-- What a line comes to. -/
def step (expand : String → Site → Except Failure Expansion) (made : Assembly)
    (site : Site) : Except Failure Assembly :=
  match BodyLine.read site.raw.toList with
  | .error cause => .error (cause.atSite site)
  | .ok line =>
    match line.part expand site with
    | .error failure => .error failure
    | .ok part => made.take site part line

/-- What the lines of a packet come to. -/
def assembled (expand : String → Site → Except Failure Expansion) (lines : List Site) :
    Except Failure SignatureSet :=
  match lines.foldlM (step expand) {} with
  | .error failure => .error failure
  | .ok made => made.finished

/-- A packet succeeds if all its lines are taken in, and its end. -/
theorem assembled_eq_ok_iff {expand : String → Site → Except Failure Expansion}
    {lines : List Site} {set : SignatureSet} :
    assembled expand lines = .ok set ↔
      ∃ made, lines.foldlM (step expand) {} = .ok made ∧ made.finished = .ok set := by
  unfold assembled
  cases lines.foldlM (step expand) {} with
  | error failure => simp
  | ok made => simp

/-- A line is taken in if it is read, if the fragment it refers to is
found, and if its form fits. -/
theorem step_eq_ok_iff {expand : String → Site → Except Failure Expansion}
    {made later : Assembly} {site : Site} :
    made.step expand site = .ok later ↔
      ∃ part, site.form.part expand site = .ok part ∧
        made.take site part site.form = .ok later := by
  unfold step Site.form
  cases BodyLine.read site.raw.toList with
  | error cause => simp [take]
  | ok line =>
    cases h : line.part expand site with
    | error failure => simp [h]
    | ok part => simp [h]

/-! ## Expanders that find more -/

section Wider

variable {expand wider : String → Site → Except Failure Expansion}

theorem part_imp (imp : ∀ name site found, expand name site = .ok found →
      wider name site = .ok found)
    {site : Site} {line : BodyLine} {part : Expansion} (h : line.part expand site = .ok part) :
    line.part wider site = .ok part := by
  unfold BodyLine.part at h ⊢
  split at h
  · exact imp _ _ _ h
  · exact h

theorem step_imp (imp : ∀ name site found, expand name site = .ok found →
      wider name site = .ok found)
    {made later : Assembly} {site : Site} (h : made.step expand site = .ok later) :
    made.step wider site = .ok later := by
  obtain ⟨part, found, taken⟩ := step_eq_ok_iff.mp h
  exact step_eq_ok_iff.mpr ⟨part, part_imp imp found, taken⟩

theorem foldlM_step_imp (imp : ∀ name site found, expand name site = .ok found →
      wider name site = .ok found)
    {lines : List Site} {made later : Assembly}
    (h : lines.foldlM (step expand) made = .ok later) :
    lines.foldlM (step wider) made = .ok later := by
  induction lines generalizing made with
  | nil => exact h
  | cons site rest ih =>
    rw [List.foldlM_cons] at h ⊢
    cases first : made.step expand site with
    | error failure =>
      rw [first] at h
      cases h
    | ok next =>
      rw [first] at h
      rw [step_imp imp first]
      exact ih h

/-- What is found with fewer expansions is found with more. -/
theorem assembled_imp (imp : ∀ name site found, expand name site = .ok found →
      wider name site = .ok found)
    {lines : List Site} {set : SignatureSet} (h : assembled expand lines = .ok set) :
    assembled wider lines = .ok set := by
  obtain ⟨made, run, finished⟩ := assembled_eq_ok_iff.mp h
  exact assembled_eq_ok_iff.mpr ⟨made, foldlM_step_imp imp run, finished⟩

end Wider

/-! ## The work and its plain steps -/

theorem closeBranch_ends (made : Assembly) (state : σ) :
    (made.closeBranch : Job σ Assembly).Ends state fun result left _ =>
      result = made.closed ∧ left = state := by
  unfold closeBranch closed
  cases made.current with
  | none => exact ⟨rfl, rfl⟩
  | some branch =>
    dsimp only
    split
    · exact ⟨rfl, rfl⟩
    · split
      · exact ⟨rfl, rfl⟩
      · exact ⟨rfl, rfl⟩

theorem openBranch_ends (made : Assembly) (header : BranchHeader) (site : Site) (state : σ) :
    (made.openBranch header site : Job σ Assembly).Ends state fun result left _ =>
      result = made.opened header site ∧ left = state := by
  unfold openBranch opened
  cases made.openRepeat with
  | some opened => exact ⟨rfl, rfl⟩
  | none =>
    dsimp only
    rw [Job.ends_bind]
    refine (closeBranch_ends made state).imp fun result left _ h => ?_
    obtain ⟨rfl, rfl⟩ := h
    cases made.closed with
    | error failure => exact ⟨rfl, rfl⟩
    | ok closed =>
      simp only [Except.bind]
      rw [Job.ends_bind, Job.ends_ofExcept]
      cases closed.noteDescription header.description site with
      | error failure => exact ⟨rfl, rfl⟩
      | ok noted =>
        dsimp only
        rw [Job.ends_bind, Job.ends_ofExcept]
        cases noted.startBranch { description := header.description, site }
            header.discriminator with
        | error failure => exact ⟨rfl, rfl⟩
        | ok started => exact ⟨rfl, rfl⟩

theorem finish_ends (made : Assembly) (state : σ) :
    (made.finish : Job σ SignatureSet).Ends state fun result left _ =>
      result = made.finished ∧ left = state := by
  unfold finish finished
  cases made.openRepeat with
  | some opened => exact ⟨rfl, rfl⟩
  | none =>
    cases made.placeholder with
    | none => exact ⟨rfl, rfl⟩
    | some line =>
      simp only [Job.ends_bind]
      refine (closeBranch_ends made state).imp fun result left _ h => ?_
      obtain ⟨rfl, rfl⟩ := h
      cases made.closed with
      | error failure => exact ⟨rfl, rfl⟩
      | ok closed => exact ⟨rfl, rfl⟩

variable {fragments : OrderedMap Fragment} {given known : Expansions}

/-- A line, where some expansions are kept beyond those that were given.
What it needed is kept when it is taken in. -/
theorem addLine_ends (grown : Grown fragments given known) (made : Assembly) (site : Site) :
    (addLine (resolve fragments []) made site).Ends known fun result after _ =>
      result = made.step (expandGiven given fragments []) site ∧
        Grown fragments known after ∧
        ∀ later, result = .ok later → made.step (remembered fragments after) site = .ok later := by
  unfold addLine step BodyLine.readAt
  cases BodyLine.read site.raw.toList with
  | error cause => exact ⟨rfl, .refl, fun _ same => same⟩
  | ok line =>
    rw [Job.ends_bind, Job.ends_bind, Job.ends_report]
    dsimp only
    rw [Job.ends_pure]
    cases line with
    | field line => exact ⟨rfl, .refl, fun _ same => same⟩
    | branch header =>
      refine (openBranch_ends made header site known).imp fun result left _ h => ?_
      obtain ⟨rfl, rfl⟩ := h
      exact ⟨rfl, .refl, fun _ same => same⟩
    | unrecognized => exact ⟨rfl, .refl, fun _ same => same⟩
    | control line =>
      cases line with
      | fragmentRef name =>
        dsimp only
        rw [Job.ends_bind]
        refine (resolve_ends [] name site known grown (by simp)).imp
          fun result after _ resolved => ?_
        obtain ⟨found, more, _, kept⟩ := resolved
        subst found
        dsimp only [BodyLine.part]
        cases looked : expandGiven given fragments [] name site with
        | error failure => exact ⟨rfl, more, fun _ same => nomatch same⟩
        | ok expansion =>
          simp only [Except.map, Job.ends_pure]
          refine ⟨rfl, more, fun later same => ?_⟩
          rw [kept expansion looked]
          exact same
      | placeholder => exact ⟨rfl, .refl, fun _ same => same⟩
      | repeatStart => exact ⟨rfl, .refl, fun _ same => same⟩
      | repeatEnd => exact ⟨rfl, .refl, fun _ same => same⟩
      | pack => exact ⟨rfl, .refl, fun _ same => same⟩

theorem foldlM_addLine_ends (lines : List Site) (made : Assembly)
    (grown : Grown fragments given known) :
    (lines.foldlM (addLine (resolve fragments [])) made).Ends known fun result after _ =>
      result = lines.foldlM (step (expandGiven given fragments [])) made ∧
        Grown fragments known after ∧
        ∀ later, result = .ok later →
          lines.foldlM (step (remembered fragments after)) made = .ok later := by
  induction lines generalizing made known with
  | nil => exact ⟨rfl, .refl, fun _ same => same⟩
  | cons site rest ih =>
    rw [List.foldlM_cons, List.foldlM_cons, Job.ends_bind]
    refine (addLine_ends grown made site).imp fun result middle _ h => ?_
    obtain ⟨rfl, more, kept⟩ := h
    cases first : made.step (expandGiven given fragments []) site with
    | error failure => exact ⟨rfl, more, fun _ same => nomatch same⟩
    | ok next =>
      refine (ih next (grown.trans more)).imp fun result after _ h => ?_
      obtain ⟨same, evenMore, keptRest⟩ := h
      refine ⟨same, more.trans evenMore, fun later found => ?_⟩
      have keptFirst : made.step (remembered fragments after) site = .ok next :=
        step_imp (fun _ _ _ h => evenMore.remembered_mono h) (kept next first)
      rw [List.foldlM_cons, keptFirst]
      exact keptRest later found

end Assembly

/-- The work on a packet comes to what its plain steps come to, with the
expansions that would be found; if it succeeds, they have been kept. -/
theorem assemble_ends (fragments : OrderedMap Fragment) (body : Body) (known : Expansions) :
    (assemble fragments body).Ends known fun result after _ =>
      result = Assembly.assembled (expandGiven known fragments []) body.lines ∧
        Grown fragments known after ∧
        ∀ set, result = .ok set →
          Assembly.assembled (remembered fragments after) body.lines = .ok set := by
  unfold assemble Assembly.assembled
  rw [Job.ends_bind]
  refine (Assembly.foldlM_addLine_ends body.lines {} .refl).imp fun result after _ h => ?_
  obtain ⟨rfl, grown, kept⟩ := h
  cases run : body.lines.foldlM (Assembly.step (expandGiven known fragments [])) {} with
  | error failure => exact ⟨rfl, grown, fun _ same => nomatch same⟩
  | ok made =>
    refine (Assembly.finish_ends made after).imp fun result left _ h => ?_
    obtain ⟨rfl, rfl⟩ := h
    refine ⟨rfl, grown, fun set found => ?_⟩
    rw [kept made run]
    exact found

end PacketLayout
