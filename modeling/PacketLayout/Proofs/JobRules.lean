/-
PacketLayout.Proofs.JobRules — what a job comes to, rule by rule.

`Ends` says of a job and the state it starts on what holds of its result,
of the state it leaves and of the entries it reports, whether it succeeds
or fails. Each way of building a job has one rule, and all rules are
equivalences, so rewriting with them takes a job apart down to the jobs
whose own facts are known.

`Alike` says of two jobs, on states of their own, that from states that
belong together they come to outcomes that do. What belongs together is
given by a `Likeness`, and for the answers by a relation of their own. It
too has one rule for each way of building a job. `Mirrors` is the case of
jobs that differ in their states alone: the results are the same, and so
are the entries.

`Has` says of a job that all its runs have an effect on the state and the
journal. For an effect that adds up it is enough to look at the parts.
`Reports` is the case of the entries alone.

`Yields` says what holds if the job succeeds, and nothing of a failure.

* `ends_bind`: one job after another.
* `ends_foldlM`, `ends_foldlM_along`: an invariant of every step is an
  invariant of the run.
* `foldlM_run_congr`: two runs from one state, step by step the same.
* `Alike.bind`, `Mirrors.bind`: one job after another, on both sides.
* `alike_foldlM`: two runs over lists that belong together item by item.
* `Has.bind`, `Has.foldlM`: an effect that adds up.
* `Yields.bind`, `yields_foldlM`: what a success has come to, entry by entry.
-/
import Mathlib.Data.List.Forall2
import PacketLayout.Job

namespace PacketLayout

namespace Job

variable {σ τ α β : Type}

/-- The job, started on `state`, comes to a result, a state and entries
of which `post` holds. -/
def Ends (job : Job σ α) (state : σ) (post : Except Failure α → σ → Journal → Prop) :
    Prop :=
  post (job state).result (job state).state (job state).entries

/-- What is known of a job's end can be weakened. -/
theorem Ends.imp {job : Job σ α} {state : σ}
    {post weaker : Except Failure α → σ → Journal → Prop} (h : job.Ends state post)
    (imp : ∀ result left entries, post result left entries → weaker result left entries) :
    job.Ends state weaker :=
  imp _ _ _ h

/-- Two things that are known of a job's end are known together. -/
theorem Ends.and {job : Job σ α} {state : σ}
    {post also : Except Failure α → σ → Journal → Prop} (h : job.Ends state post)
    (more : job.Ends state also) :
    job.Ends state fun result left entries => post result left entries ∧ also result left entries :=
  ⟨h, more⟩

section Rules

variable {state : σ} {post : Except Failure α → σ → Journal → Prop}

theorem ends_pure {answer : α} :
    (Pure.pure answer : Job σ α).Ends state post ↔ post (.ok answer) state [] := Iff.rfl

theorem ends_fail {failure : Failure} :
    (fail failure : Job σ α).Ends state post ↔ post (.error failure) state [] := Iff.rfl

theorem ends_ofExcept {result : Except Failure α} :
    (ofExcept result : Job σ α).Ends state post ↔ post result state [] := Iff.rfl

theorem ends_report {entries : Journal} {post : Except Failure Unit → σ → Journal → Prop} :
    (report entries : Job σ Unit).Ends state post ↔ post (.ok ()) state entries := Iff.rfl

theorem ends_get {post : Except Failure σ → σ → Journal → Prop} :
    (get : Job σ σ).Ends state post ↔ post (.ok state) state [] := Iff.rfl

theorem ends_zoom {part : τ → σ} {put : τ → σ → τ} {job : Job σ α} {whole : τ}
    {post : Except Failure α → τ → Journal → Prop} :
    (zoom part put job).Ends whole post ↔
      job.Ends (part whole) fun result left entries => post result (put whole left) entries :=
  Iff.rfl

/-- One job after another: what the second comes to is what the whole
comes to, unless the first fails. -/
theorem ends_bind {first : Job σ β} {next : β → Job σ α} :
    (first >>= next).Ends state post ↔
      first.Ends state fun result left entries =>
        match result with
        | .ok answer => (next answer).Ends left fun later last more =>
            post later last (entries ++ more)
        | .error failure => post (.error failure) left entries := by
  unfold Ends
  cases h : first state with
  | mk result left entries =>
    cases result with
    | ok answer => rw [bind_run_ok h]
    | error failure => rw [bind_run_error h]

theorem ends_recordingFailure {job : Job σ α} :
    job.recordingFailure.Ends state post ↔
      job.Ends state fun result left entries =>
        match result with
        | .ok answer => post (.ok answer) left entries
        | .error failure => post (.error failure) left (entries ++ [.fatal failure]) := by
  unfold Ends recordingFailure
  cases h : job state with
  | mk result left entries => cases result <;> rfl

end Rules

/-- It does not matter how jobs one after another are grouped. -/
instance : LawfulMonad (Job σ) := by
  refine LawfulMonad.mk' _ (fun job => ?_) (fun answer next => rfl) (fun first next last => ?_)
  · funext state
    change bind job (fun answer => pure answer) state = job state
    unfold bind
    cases job state with
    | mk result left entries => cases result <;> simp [pure]
  · funext state
    change bind (bind first next) last state
      = bind first (fun answer => bind (next answer) last) state
    simp only [bind]
    cases first state with
    | mk result left entries =>
      cases result with
      | error failure => rfl
      | ok answer =>
        dsimp only
        cases next answer left with
        | mk result left more => cases result <;> simp

/-! ## Runs over a list -/

/-- What every step keeps, a run over a list keeps: `invariant` is a
relation between what has been made and the state, and a run that fails
leaves a state of which `failed` holds. -/
theorem ends_foldlM {step : β → α → Job σ β} (invariant : β → σ → Prop) (failed : σ → Prop)
    (keeps : ∀ made item state, invariant made state →
      (step made item).Ends state fun result left _ =>
        (∀ later, result = .ok later → invariant later left) ∧
          ∀ failure, result = .error failure → failed left)
    (items : List α) {made : β} {state : σ} (start : invariant made state) :
    (items.foldlM step made).Ends state fun result left _ =>
      (∀ later, result = .ok later → invariant later left) ∧
        ∀ failure, result = .error failure → failed left := by
  induction items generalizing made state with
  | nil =>
    refine ⟨fun later same => ?_, fun failure same => ?_⟩
    · cases same
      exact start
    · cases same
  | cons item rest ih =>
    rw [List.foldlM_cons, ends_bind]
    refine (keeps made item state start).imp fun result left _ known => ?_
    cases result with
    | ok later => exact ih (known.1 later rfl)
    | error failure =>
      refine ⟨fun _ same => ?_, fun _ _ => known.2 failure rfl⟩
      cases same

/-- The same where the invariant speaks of the items done so far: a run
that fails has met an item that `failed` behind those before it. -/
theorem ends_foldlM_along {step : β → α → Job σ β} {items : List α}
    (invariant : List α → β → σ → Prop) (failed : List α → α → Failure → σ → Prop)
    (keeps : ∀ done item rest made state, items = done ++ item :: rest →
      invariant done made state → (step made item).Ends state fun result left _ =>
        (∀ later, result = .ok later → invariant (done ++ [item]) later left) ∧
          ∀ failure, result = .error failure → failed done item failure left)
    {made : β} {state : σ} (start : invariant [] made state) :
    (items.foldlM step made).Ends state fun result left _ =>
      (∀ later, result = .ok later → invariant items later left) ∧
        ∀ failure, result = .error failure → ∃ done item rest,
          items = done ++ item :: rest ∧ failed done item failure left := by
  suffices all : ∀ rest done, items = done ++ rest → ∀ made state, invariant done made state →
      (rest.foldlM step made).Ends state fun result left _ =>
        (∀ later, result = .ok later → invariant items later left) ∧
          ∀ failure, result = .error failure → ∃ done item rest,
            items = done ++ item :: rest ∧ failed done item failure left from
    all items [] rfl made state start
  intro rest
  induction rest with
  | nil =>
    intro done split made state here
    rw [List.append_nil] at split
    refine ⟨fun later same => ?_, fun failure same => ?_⟩
    · cases same
      exact split ▸ here
    · cases same
  | cons item rest ih =>
    intro done split made state here
    rw [List.foldlM_cons, ends_bind]
    refine (keeps done item rest made state split here).imp fun result left _ known => ?_
    cases result with
    | ok later => exact ih (done ++ [item]) (by simp [split]) later left (known.1 later rfl)
    | error failure =>
      refine ⟨fun _ same => ?_, fun other same => ?_⟩
      · cases same
      · cases same
        exact ⟨done, item, rest, split, known.2 failure rfl⟩

/-- Doing a job for each item is a run that makes nothing. -/
theorem forM_eq_foldlM (job : α → Job σ Unit) (items : List α) :
    items.forM job = items.foldlM (fun _ item => job item) () := by
  induction items with
  | nil => rfl
  | cons item rest ih =>
    rw [List.forM, List.foldlM_cons, ih]

/-- The same of jobs that are done for one item after another. -/
theorem ends_forM_along {job : α → Job σ Unit} {items : List α}
    (invariant : List α → σ → Prop) (failed : List α → α → Failure → σ → Prop)
    (keeps : ∀ done item rest state, items = done ++ item :: rest → invariant done state →
      (job item).Ends state fun result left _ =>
        (result = .ok () → invariant (done ++ [item]) left) ∧
          ∀ failure, result = .error failure → failed done item failure left)
    {state : σ} (start : invariant [] state) :
    (items.forM job).Ends state fun result left _ =>
      (result = .ok () → invariant items left) ∧
        ∀ failure, result = .error failure → ∃ done item rest,
          items = done ++ item :: rest ∧ failed done item failure left := by
  rw [forM_eq_foldlM]
  refine (ends_foldlM_along (fun done (_ : Unit) state => invariant done state) failed
    (fun done item rest _ state split here => ?_) start).imp fun result left _ known =>
      ⟨known.1 (), known.2⟩
  exact (keeps done item rest state split here).imp fun result left _ known =>
    ⟨fun _ same => known.1 same, known.2⟩

/-! ## The same on one state -/

/-- Only the state that the first job starts on matters. -/
theorem bind_run_congr {first other : Job σ α} {next : α → Job σ β} {state : σ}
    (same : first state = other state) : (first >>= next) state = (other >>= next) state := by
  change bind first next state = bind other next state
  unfold bind
  rw [same]

/-- Two runs over a list do the same, where every step does the same on
what has been made and left by then. -/
theorem foldlM_run_congr {step other : β → α → Job σ β}
    (fine : β → List α → σ → Prop)
    (same : ∀ made item rest state, fine made (item :: rest) state →
      step made item state = other made item state)
    (goes : ∀ made item rest state later left entries, fine made (item :: rest) state →
      other made item state = ⟨.ok later, left, entries⟩ → fine later rest left)
    (items : List α) {made : β} {state : σ} (start : fine made items state) :
    items.foldlM step made state = items.foldlM other made state := by
  induction items generalizing made state with
  | nil => rfl
  | cons item rest ih =>
    have here := same made item rest state start
    rw [List.foldlM_cons, List.foldlM_cons]
    cases run : other made item state with
    | mk result left entries =>
      rw [run] at here
      cases result with
      | error failure => rw [bind_run_error run, bind_run_error here]
      | ok later =>
        rw [bind_run_ok run, bind_run_ok here,
          ih (goes made item rest state later left entries start run)]

/-! ## Two jobs alike -/

/-- What two runs are compared by: when their states, their failures and
their entries belong together. -/
structure Likeness (σ τ : Type) where
  states : σ → τ → Prop
  failures : Failure → Failure → Prop
  entries : Entry → Entry → Prop

/-- Two answers that belong together, or two failures. -/
inductive ResultsAlike (failures : Failure → Failure → Prop) (answers : α → β → Prop) :
    Except Failure α → Except Failure β → Prop
  | ok {answer : α} {other : β} (h : answers answer other) :
    ResultsAlike failures answers (.ok answer) (.ok other)
  | error {failure other : Failure} (h : failures failure other) :
    ResultsAlike failures answers (.error failure) (.error other)

theorem ResultsAlike.imp {α' : Type} {failures failures' : Failure → Failure → Prop}
    {answers answers' : α → α' → Prop} {result : Except Failure α} {other : Except Failure α'}
    (h : ResultsAlike failures answers result other)
    (failed : ∀ failure other, failures failure other → failures' failure other)
    (known : ∀ answer other, answers answer other → answers' answer other) :
    ResultsAlike failures' answers' result other := by
  cases h with
  | ok same => exact .ok (known _ _ same)
  | error same => exact .error (failed _ _ same)

theorem ResultsAlike.map {α' β' : Type} {failures : Failure → Failure → Prop}
    {between : α → α' → Prop} {answers : β → β' → Prop} {result : Except Failure α}
    {other : Except Failure α'} {f : α → β} {g : α' → β'}
    (h : ResultsAlike failures between result other)
    (keeps : ∀ answer other, between answer other → answers (f answer) (g other)) :
    ResultsAlike failures answers (result.map f) (other.map g) := by
  cases h with
  | ok known => exact .ok (keeps _ _ known)
  | error failed => exact .error failed

/-- Two outcomes that belong together in all their parts. -/
structure OutcomesAlike (as : Likeness σ τ) (answers : α → β → Prop) (first : Outcome σ α)
    (second : Outcome τ β) : Prop where
  result : ResultsAlike as.failures answers first.result second.result
  state : as.states first.state second.state
  entries : List.Forall₂ as.entries first.entries second.entries

/-- From states that belong together, both jobs come to outcomes that
do. -/
def Alike (as : Likeness σ τ) (answers : α → β → Prop) (first : Job σ α) (second : Job τ β) :
    Prop :=
  ∀ state other, as.states state other → OutcomesAlike as answers (first state) (second other)

section Alike

variable {α' β' : Type} {as : Likeness σ τ} {answers : α → α' → Prop}
  {between : β → β' → Prop}

theorem alike_pure {answer : α} {other : α'} (h : answers answer other) :
    Alike as answers (Pure.pure answer : Job σ α) (Pure.pure other : Job τ α') :=
  fun _ _ start => ⟨.ok h, start, .nil⟩

theorem alike_ofExcept {result : Except Failure α} {other : Except Failure α'}
    (h : ResultsAlike as.failures answers result other) :
    Alike as answers (ofExcept result : Job σ α) (ofExcept other : Job τ α') :=
  fun _ _ start => ⟨h, start, .nil⟩

theorem alike_fail {failure other : Failure} (h : as.failures failure other) :
    Alike as answers (fail failure : Job σ α) (fail other : Job τ α') :=
  alike_ofExcept (.error h)

theorem alike_report {entries others : Journal} (h : List.Forall₂ as.entries entries others) :
    Alike as Eq (report entries : Job σ Unit) (report others : Job τ Unit) :=
  fun _ _ start => ⟨.ok rfl, start, h⟩

theorem alike_get : Alike as as.states get get :=
  fun _ _ start => ⟨.ok start, start, .nil⟩

theorem alike_set {state : σ} {other : τ} (h : as.states state other) :
    Alike as Eq (set state) (set other) :=
  fun _ _ _ => ⟨.ok rfl, h, .nil⟩

theorem Alike.bind {first : Job σ β} {second : Job τ β'} {next : β → Job σ α}
    {following : β' → Job τ α'} (h : Alike as between first second)
    (later : ∀ answer other, between answer other →
      Alike as answers (next answer) (following other)) :
    Alike as answers (first >>= next) (second >>= following) := by
  intro state other start
  obtain ⟨result, left, entries⟩ := h state other start
  cases one : first state with
  | mk answer middle reported =>
    cases two : second other with
    | mk answer' middle' reported' =>
      rw [one, two] at result entries left
      cases result with
      | error failed =>
        rw [bind_run_error one, bind_run_error two]
        exact ⟨.error failed, left, entries⟩
      | ok known =>
        rw [bind_run_ok one, bind_run_ok two]
        obtain ⟨last, ended, more⟩ := later _ _ known middle middle' left
        exact ⟨last, ended, List.rel_append entries more⟩

/-- A failure that is recorded becomes an entry. -/
theorem OutcomesAlike.recordingFailure {first : Job σ α} {second : Job τ α'} {state : σ} {other : τ}
    (h : OutcomesAlike as answers (first state) (second other))
    (recorded : ∀ failure failure', as.failures failure failure' →
      as.entries (.fatal failure) (.fatal failure')) :
    OutcomesAlike as answers (first.recordingFailure state) (second.recordingFailure other) := by
  obtain ⟨result, left, entries⟩ := h
  unfold Job.recordingFailure
  cases one : first state with
  | mk answer middle reported =>
    cases two : second other with
    | mk answer' middle' reported' =>
      rw [one, two] at result entries left
      cases result with
      | error failed =>
        exact ⟨.error failed, left, List.rel_append entries (.cons (recorded _ _ failed) .nil)⟩
      | ok known => exact ⟨.ok known, left, entries⟩

/-- More can be known of the failures that the first outcome allows. -/
theorem OutcomesAlike.sharpen {first : Outcome σ α} {second : Outcome τ α'}
    {failures : Failure → Failure → Prop} (h : OutcomesAlike as answers first second)
    (sharp : ∀ failure other, first.result = .error failure → as.failures failure other →
      failures failure other) :
    OutcomesAlike { as with failures } answers first second := by
  obtain ⟨result, left, entries⟩ := first
  obtain ⟨result', left', entries'⟩ := second
  obtain ⟨alike, state, reported⟩ := h
  refine ⟨?_, state, reported⟩
  cases alike with
  | ok known => exact .ok known
  | error failed => exact .error (sharp _ _ rfl failed)

theorem alike_foldlM {items : α → α' → Prop} {step : β → α → Job σ β}
    {other : β' → α' → Job τ β'}
    (h : ∀ made made' item item', between made made' → items item item' →
      Alike as between (step made item) (other made' item'))
    {list : List α} {list' : List α'} (along : List.Forall₂ items list list') {made : β}
    {made' : β'} (start : between made made') :
    Alike as between (list.foldlM step made) (list'.foldlM other made') := by
  induction along generalizing made made' with
  | nil => exact alike_pure start
  | cons here _ ih =>
    rw [List.foldlM_cons, List.foldlM_cons]
    exact (h _ _ _ _ start here).bind fun _ _ next => ih next

theorem alike_forM {items : α → α' → Prop} {job : α → Job σ Unit} {other : α' → Job τ Unit}
    (h : ∀ item item', items item item' → Alike as Eq (job item) (other item'))
    {list : List α} {list' : List α'} (along : List.Forall₂ items list list') :
    Alike as Eq (list.forM job) (list'.forM other) := by
  induction along with
  | nil => exact alike_pure rfl
  | cons here _ ih =>
    rw [List.forM, List.forM]
    exact (h _ _ here).bind fun _ _ _ => ih

end Alike

/-! ## Two jobs in step -/

/-- From states that are related, both jobs come to the same result and
report the same entries, and the states they leave are related again. -/
def Mirrors (related : σ → τ → Prop) (first : Job σ α) (second : Job τ α) : Prop :=
  ∀ state other, related state other →
    (first state).result = (second other).result ∧
      (first state).entries = (second other).entries ∧
      related (first state).state (second other).state

section Mirrors

variable {related : σ → τ → Prop}

theorem resultsAlike_eq_iff {result other : Except Failure α} :
    ResultsAlike Eq Eq result other ↔ result = other := by
  constructor
  · rintro (rfl | rfl)
    · rfl
    · rfl
  · rintro rfl
    cases result with
    | ok answer => exact .ok rfl
    | error failure => exact .error rfl

/-- To go in step is to be alike with nothing changed but the states. -/
theorem mirrors_iff {first : Job σ α} {second : Job τ α} :
    Mirrors related first second ↔ Alike ⟨related, Eq, Eq⟩ Eq first second := by
  constructor
  · intro h state other start
    obtain ⟨result, entries, left⟩ := h state other start
    exact ⟨resultsAlike_eq_iff.mpr result, left, by rw [List.forall₂_eq_eq_eq]; exact entries⟩
  · intro h state other start
    obtain ⟨result, left, entries⟩ := h state other start
    rw [List.forall₂_eq_eq_eq] at entries
    exact ⟨resultsAlike_eq_iff.mp result, entries, left⟩

theorem mirrors_pure {answer : α} :
    Mirrors related (Pure.pure answer : Job σ α) (Pure.pure answer : Job τ α) :=
  mirrors_iff.mpr (alike_pure rfl)

theorem mirrors_fail {failure : Failure} :
    Mirrors related (fail failure : Job σ α) (fail failure : Job τ α) :=
  mirrors_iff.mpr (alike_fail rfl)

theorem mirrors_report {entries : Journal} :
    Mirrors related (report entries : Job σ Unit) (report entries : Job τ Unit) :=
  mirrors_iff.mpr (alike_report (by rw [List.forall₂_eq_eq_eq]))

theorem mirrors_ofExcept {result : Except Failure α} :
    Mirrors related (ofExcept result : Job σ α) (ofExcept result : Job τ α) :=
  mirrors_iff.mpr (alike_ofExcept (resultsAlike_eq_iff.mpr rfl))

theorem mirrors_set {state : σ} {other : τ} (h : related state other) :
    Mirrors related (set state) (set other) :=
  mirrors_iff.mpr (alike_set h)

theorem Mirrors.bind {first : Job σ β} {second : Job τ β} {next : β → Job σ α}
    {following : β → Job τ α} (h : Mirrors related first second)
    (later : ∀ answer, Mirrors related (next answer) (following answer)) :
    Mirrors related (first >>= next) (second >>= following) := by
  refine mirrors_iff.mpr ((mirrors_iff.mp h).bind ?_)
  rintro answer _ rfl
  exact mirrors_iff.mp (later answer)

/-- Both jobs look at their states first. -/
theorem mirrors_get_bind {next : σ → Job σ α} {following : τ → Job τ α}
    (later : ∀ state other, related state other →
      Mirrors related (next state) (following other)) :
    Mirrors related (get >>= next) (get >>= following) :=
  fun state other h => later state other h state other h

theorem Mirrors.recordingFailure {first : Job σ α} {second : Job τ α}
    (h : Mirrors related first second) :
    Mirrors related first.recordingFailure second.recordingFailure := by
  refine mirrors_iff.mpr fun state other start => ?_
  refine (mirrors_iff.mp h state other start).recordingFailure ?_
  rintro failure _ rfl
  rfl

theorem mirrors_foldlM {step : β → α → Job σ β} {other : β → α → Job τ β}
    (h : ∀ made item, Mirrors related (step made item) (other made item)) (items : List α)
    (made : β) : Mirrors related (items.foldlM step made) (items.foldlM other made) := by
  refine mirrors_iff.mpr (alike_foldlM ?_ (List.forall₂_eq_eq_eq ▸ rfl) rfl)
  rintro made _ item _ rfl rfl
  exact mirrors_iff.mp (h made item)

theorem mirrors_forM {job : α → Job σ Unit} {other : α → Job τ Unit}
    (h : ∀ item, Mirrors related (job item) (other item)) (items : List α) :
    Mirrors related (items.forM job) (items.forM other) := by
  refine mirrors_iff.mpr (alike_forM ?_ (List.forall₂_eq_eq_eq ▸ rfl))
  rintro item _ rfl
  exact mirrors_iff.mp (h item)

end Mirrors

/-! ## Effects -/

/-- What the runs of a job may have in common: a relation between the
state a run starts on, the entries it reports and the state it leaves. -/
def Effect (σ : Type) : Type :=
  σ → Journal → σ → Prop

/-- Doing nothing has the effect, and so have two pieces of work one after
another, if each of them has it. -/
structure Effect.AddsUp (effect : Effect σ) : Prop where
  nothing : ∀ state, effect state [] state
  both : ∀ {first middle last : σ} {entries more : Journal}, effect first entries middle →
    effect middle more last → effect first (entries ++ more) last

/-- Every run of the job has the effect, whether it succeeds or fails. -/
def Has (effect : Effect σ) (job : Job σ α) : Prop :=
  ∀ state, effect state (job state).entries (job state).state

section Has

variable {effect : Effect σ}

theorem has_pure (adds : effect.AddsUp) {answer : α} :
    (Pure.pure answer : Job σ α).Has effect :=
  adds.nothing

theorem has_ofExcept (adds : effect.AddsUp) {result : Except Failure α} :
    (ofExcept result : Job σ α).Has effect :=
  adds.nothing

theorem has_fail (adds : effect.AddsUp) {failure : Failure} :
    (fail failure : Job σ α).Has effect :=
  adds.nothing

theorem has_report {entries : Journal} (h : ∀ state, effect state entries state) :
    (report entries : Job σ Unit).Has effect :=
  h

theorem Has.bind (adds : effect.AddsUp) {first : Job σ β} {next : β → Job σ α}
    (h : first.Has effect) (later : ∀ answer, (next answer).Has effect) :
    (first >>= next).Has effect := by
  intro state
  have here := h state
  cases run : first state with
  | mk result left entries =>
    rw [run] at here
    cases result with
    | error failure =>
      rw [bind_run_error run]
      exact here
    | ok answer =>
      rw [bind_run_ok run]
      exact adds.both here (later answer left)

theorem has_set {next : σ} (h : ∀ state, effect state [] next) : (set next).Has effect :=
  h

theorem Has.zoom {whole : Effect τ} {part : τ → σ} {put : τ → σ → τ} {job : Job σ α}
    (h : job.Has effect)
    (widen : ∀ state entries left, effect (part state) entries left →
      whole state entries (put state left)) : (Job.zoom part put job).Has whole :=
  fun state => widen state _ _ (h (part state))

/-- The job looks at its state first. -/
theorem has_get_bind {next : σ → Job σ α}
    (later : ∀ state, effect state (next state state).entries (next state state).state) :
    (get >>= next).Has effect :=
  later

theorem Has.foldlM (adds : effect.AddsUp) {step : β → α → Job σ β} {items : List α}
    (h : ∀ made, ∀ item ∈ items, (step made item).Has effect) (made : β) :
    (items.foldlM step made).Has effect := by
  induction items generalizing made with
  | nil => exact has_pure adds
  | cons item rest ih =>
    rw [List.foldlM_cons]
    refine (h made item (by simp)).bind adds fun next => ?_
    exact ih (fun made item mem => h made item (by simp [mem])) next

theorem Has.forM (adds : effect.AddsUp) {job : α → Job σ Unit}
    (h : ∀ item, (job item).Has effect) (items : List α) : (items.forM job).Has effect := by
  induction items with
  | nil => exact has_pure adds
  | cons item rest ih =>
    rw [List.forM]
    exact (h item).bind adds fun _ => ih

end Has

/-! ## Entries -/

/-- Every entry that the job reports is `allowed`, whether it succeeds or
fails. -/
def Reports (allowed : Entry → Prop) (job : Job σ α) : Prop :=
  job.Has fun _ entries _ => ∀ entry ∈ entries, allowed entry

section Reports

variable {allowed wider : Entry → Prop}

theorem reports_addsUp (allowed : Entry → Prop) :
    Effect.AddsUp (σ := σ) fun _ entries _ => ∀ entry ∈ entries, allowed entry where
  nothing _ _ mem := nomatch mem
  both one two entry mem := (List.mem_append.mp mem).elim (one entry) (two entry)

theorem Reports.imp {job : Job σ α} (h : job.Reports allowed)
    (imp : ∀ entry, allowed entry → wider entry) : job.Reports wider :=
  fun state entry mem => imp entry (h state entry mem)

theorem reports_pure {answer : α} : (Pure.pure answer : Job σ α).Reports allowed :=
  has_pure (reports_addsUp allowed)

theorem reports_fail {failure : Failure} : (fail failure : Job σ α).Reports allowed :=
  has_fail (reports_addsUp allowed)

theorem reports_ofExcept {result : Except Failure α} :
    (ofExcept result : Job σ α).Reports allowed :=
  has_ofExcept (reports_addsUp allowed)

theorem reports_set {state : σ} : (set state).Reports allowed :=
  has_set fun _ _ mem => nomatch mem

theorem reports_report {entries : Journal} (h : ∀ entry ∈ entries, allowed entry) :
    (report entries : Job σ Unit).Reports allowed :=
  has_report fun _ => h

theorem Reports.bind {first : Job σ β} {next : β → Job σ α} (h : first.Reports allowed)
    (later : ∀ answer, (next answer).Reports allowed) : (first >>= next).Reports allowed :=
  Has.bind (reports_addsUp allowed) h later

/-- The job looks at its state first. -/
theorem reports_get_bind {next : σ → Job σ α} (later : ∀ state, (next state).Reports allowed) :
    (get >>= next).Reports allowed :=
  has_get_bind fun state => later state state

theorem reports_foldlM {step : β → α → Job σ β}
    (h : ∀ made item, (step made item).Reports allowed) (items : List α) (made : β) :
    (items.foldlM step made).Reports allowed :=
  Has.foldlM (reports_addsUp allowed) (fun made item _ => h made item) made

theorem reports_forM {job : α → Job σ Unit} (h : ∀ item, (job item).Reports allowed)
    (items : List α) : (items.forM job).Reports allowed :=
  Has.forM (reports_addsUp allowed) h items

end Reports

/-! ## Success -/

/-- If the job, started on `state`, succeeds, `post` holds of its answer,
of the state it leaves and of the entries it reports. -/
def Yields (job : Job σ α) (state : σ) (post : α → σ → Journal → Prop) : Prop :=
  job.Ends state fun result left entries => ∀ answer, result = .ok answer → post answer left entries

section Yields

variable {state : σ} {post : α → σ → Journal → Prop}

/-- What is known of the end of a job is known of its success. -/
theorem Ends.yields {job : Job σ α} {ends : Except Failure α → σ → Journal → Prop}
    (h : job.Ends state ends)
    (imp : ∀ answer left entries, ends (.ok answer) left entries → post answer left entries) :
    job.Yields state post := by
  refine h.imp fun result left entries known answer same => ?_
  subst same
  exact imp answer left entries known

theorem Yields.imp {job : Job σ α} {weaker : α → σ → Journal → Prop} (h : job.Yields state post)
    (imp : ∀ answer left entries, post answer left entries → weaker answer left entries) :
    job.Yields state weaker :=
  fun answer same => imp _ _ _ (h answer same)

theorem Yields.and {job : Job σ α} {also : α → σ → Journal → Prop} (h : job.Yields state post)
    (more : job.Yields state also) :
    job.Yields state fun answer left entries =>
      post answer left entries ∧ also answer left entries :=
  fun answer same => ⟨h answer same, more answer same⟩

theorem yields_pure {answer : α} (h : post answer state []) :
    (Pure.pure answer : Job σ α).Yields state post := by
  intro other same
  cases same
  exact h

theorem yields_fail {failure : Failure} : (fail failure : Job σ α).Yields state post :=
  fun _ same => nomatch same

theorem Yields.bind {first : Job σ β} {next : β → Job σ α}
    (h : first.Yields state fun answer left entries =>
      (next answer).Yields left fun last final more => post last final (entries ++ more)) :
    (first >>= next).Yields state post := by
  refine ends_bind.mpr (Ends.imp h fun result left entries known => ?_)
  cases result with
  | error failure => exact fun _ same => nomatch same
  | ok answer => exact known answer rfl

theorem yields_report_bind {entries : Journal} {next : Unit → Job σ α}
    (h : (next ()).Yields state fun answer left more => post answer left (entries ++ more)) :
    (report entries >>= next).Yields state post :=
  h

theorem yields_ofExcept {result : Except Failure α}
    (h : ∀ answer, result = .ok answer → post answer state []) :
    (ofExcept result : Job σ α).Yields state post :=
  h

theorem yields_ofExcept_bind {result : Except Failure β} {next : β → Job σ α}
    (h : ∀ answer, result = .ok answer → (next answer).Yields state post) :
    (ofExcept result >>= next).Yields state post :=
  Yields.bind h

theorem yields_get_bind {next : σ → Job σ α} (h : (next state).Yields state post) :
    (get >>= next).Yields state post :=
  h

theorem yields_set_bind {left : σ} {next : Unit → Job σ α} (h : (next ()).Yields left post) :
    (set left >>= next).Yields state post :=
  h

theorem Yields.zoom {part : τ → σ} {put : τ → σ → τ} {job : Job σ α} {whole : τ}
    {post : α → τ → Journal → Prop}
    (h : job.Yields (part whole) fun answer left entries => post answer (put whole left) entries) :
    (Job.zoom part put job).Yields whole post :=
  h

theorem Yields.recordingFailure {job : Job σ α} (h : job.Yields state post) :
    job.recordingFailure.Yields state post := by
  refine ends_recordingFailure.mpr (Ends.imp h fun result left entries known => ?_)
  cases result with
  | error failure => exact fun _ same => nomatch same
  | ok answer => exact known

/-- What every step that succeeds keeps, a run that succeeds keeps:
`invariant` is a relation between the items done, what has been made of
them, the state and the entries reported so far. -/
theorem yields_foldlM {step : β → α → Job σ β} {items : List α}
    (invariant : List α → β → σ → Journal → Prop)
    (keeps : ∀ done item rest made state entries, items = done ++ item :: rest →
      invariant done made state entries →
      (step made item).Yields state fun later left more =>
        invariant (done ++ [item]) later left (entries ++ more))
    {made : β} (start : invariant [] made state []) :
    (items.foldlM step made).Yields state fun later left entries =>
      invariant items later left entries := by
  suffices all : ∀ rest done, items = done ++ rest → ∀ made state entries,
      invariant done made state entries →
      (rest.foldlM step made).Yields state fun later left more =>
        invariant items later left (entries ++ more) from
    all items [] rfl made state [] start
  intro rest
  induction rest with
  | nil =>
    intro done split made state entries here
    rw [List.append_nil] at split
    exact yields_pure (by rw [List.append_nil]; exact split ▸ here)
  | cons item rest ih =>
    intro done split made state entries here
    rw [List.foldlM_cons]
    refine Yields.bind ((keeps done item rest made state entries split here).imp
      fun later left more next => ?_)
    exact (ih (done ++ [item]) (by simp [split]) later left (entries ++ more) next).imp
      fun _ _ _ last => by rwa [← List.append_assoc]

/-- The same of jobs that are done for one item after another. -/
theorem yields_forM {job : α → Job σ Unit} {items : List α}
    (invariant : List α → σ → Journal → Prop)
    (keeps : ∀ done item rest state entries, items = done ++ item :: rest →
      invariant done state entries →
      (job item).Yields state fun _ left more => invariant (done ++ [item]) left (entries ++ more))
    (start : invariant [] state []) :
    (items.forM job).Yields state fun _ left entries => invariant items left entries := by
  rw [forM_eq_foldlM]
  exact yields_foldlM (fun done (_ : Unit) state entries => invariant done state entries)
    (fun done item rest _ state entries split here => keeps done item rest state entries split here)
    start

end Yields

end Job

end PacketLayout
