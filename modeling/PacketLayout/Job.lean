/-
PacketLayout.Job — work that changes a state, keeps a journal, and may
fail.

A job runs on a state and has an outcome: an answer or a failure, the
state it leaves, and the entries it reported. A failed job leaves the
state and the entries of what it did before it failed; nothing is rolled
back, and nothing after the failure happens.

The outcome holds only the entries of this job. They are added to the
journal of whoever runs it, so a job can neither read nor change what
was reported before it started.
-/
import PacketLayout.Journal

namespace PacketLayout

/-- What a job comes to. -/
structure Outcome (σ α : Type) where
  result : Except Failure α
  state : σ
  entries : Journal

/-- Work on a state `σ` with an answer in `α`. -/
def Job (σ α : Type) : Type :=
  σ → Outcome σ α

namespace Job

variable {σ τ α β : Type}

def pure (answer : α) : Job σ α :=
  fun state => ⟨.ok answer, state, []⟩

/-- One job after another: the second starts from the answer and the
state of the first, and does not start at all if the first fails. -/
def bind (first : Job σ α) (next : α → Job σ β) : Job σ β :=
  fun state =>
    match first state with
    | ⟨.error failure, left, entries⟩ => ⟨.error failure, left, entries⟩
    | ⟨.ok answer, left, entries⟩ =>
      let later := next answer left
      ⟨later.result, later.state, entries ++ later.entries⟩

instance : Monad (Job σ) where
  pure := pure
  bind := bind

/-- Gives up. -/
def fail (failure : Failure) : Job σ α :=
  fun state => ⟨.error failure, state, []⟩

/-- Adds entries to the journal. -/
def report (entries : Journal) : Job σ Unit :=
  fun state => ⟨.ok (), state, entries⟩

def get : Job σ σ :=
  fun state => ⟨.ok state, state, []⟩

def set (state : σ) : Job σ Unit :=
  fun _ => ⟨.ok (), state, []⟩

/-- The answer of a calculation that may fail. -/
def ofExcept (result : Except Failure α) : Job σ α :=
  fun state => ⟨result, state, []⟩

/-- Does work on a part of the state. -/
def zoom (part : τ → σ) (put : τ → σ → τ) (job : Job σ α) : Job τ α :=
  fun state =>
    let outcome := job (part state)
    ⟨outcome.result, put state outcome.state, outcome.entries⟩

/-- Does the work, and if it fails, records the failure as the last
entry. -/
def recordingFailure (job : Job σ α) : Job σ α :=
  fun state =>
    match job state with
    | ⟨.error failure, left, entries⟩ => ⟨.error failure, left, entries ++ [.fatal failure]⟩
    | ⟨.ok answer, left, entries⟩ => ⟨.ok answer, left, entries⟩

@[simp] theorem pure_run (answer : α) (state : σ) :
    (Pure.pure answer : Job σ α) state = ⟨.ok answer, state, []⟩ := rfl

theorem bind_run_ok {first : Job σ α} {next : α → Job σ β} {state left : σ}
    {answer : α} {entries : Journal} (h : first state = ⟨.ok answer, left, entries⟩) :
    (first >>= next) state
      = ⟨(next answer left).result, (next answer left).state,
          entries ++ (next answer left).entries⟩ := by
  change bind first next state = _
  simp [bind, h]

theorem bind_run_error {first : Job σ α} {next : α → Job σ β} {state left : σ}
    {failure : Failure} {entries : Journal}
    (h : first state = ⟨.error failure, left, entries⟩) :
    (first >>= next) state = ⟨.error failure, left, entries⟩ := by
  change bind first next state = _
  simp [bind, h]

end Job

end PacketLayout
