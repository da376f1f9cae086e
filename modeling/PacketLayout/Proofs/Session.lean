/-
PacketLayout.Proofs.Session — the workspaces that work leads to.

A session is any sequence of operations on a workspace, each of which
may succeed or fail. `Reached allowed` are the workspaces a session can
lead to from an empty one, if every operation was `allowed` where it was
done; what holds of the empty workspace and is kept by every operation
that is allowed holds of all of them.

* `Reached.session`: a session, written as a list, leads to such a
  workspace.
* `perform_cases`: an operation leaves the results alone, or else the
  declarations, and then the results advance.
* `perform_keeps`: what all changes of a load keep, an operation keeps, if
  the change that it asks for itself keeps it.
-/
import PacketLayout.Proofs.Compiling
import PacketLayout.Proofs.Declaring
import PacketLayout.Workspace

namespace PacketLayout

instance instDecidableEqExcept {ε α : Type} [DecidableEq ε] [DecidableEq α] :
    DecidableEq (Except ε α)
  | .error first, .error second => decidable_of_iff (first = second) (by simp)
  | .ok first, .ok second => decidable_of_iff (first = second) (by simp)
  | .error _, .ok _ => .isFalse (by simp)
  | .ok _, .error _ => .isFalse (by simp)

/-- What can be done with a workspace.

A declaration is added afresh: it can have lines, and a fragment can be
busy, but no expansion and no signatures come with it. There are results in
a workspace only because something was compiled there. -/
inductive Operation where
  | registerFragment (name : String) (site : Site)
  | registerPacket (description header : String) (site : Site)
  | addFragment (fragment : Fragment) (raw : String)
  | addPacket (packet : Packet) (raw : String)
  | addLine (owner : Owner) (site : Site)
  | load (source : String)
  | compileFragment (name : String) (site : Site)
  | compilePacket (header : String)
  | compileAll
  | record (entry : Entry)

/-- Every operation. -/
def Operation.Any (_ : Workspace) (_ : Operation) : Prop := True

/-- If the operation asks for a single change of the declarations,
`holds` is true of what the change makes of them. -/
def Operation.Keeps (holds : Declarations → Prop) (declared : Declarations) :
    Operation → Prop
  | .addFragment fragment raw =>
    ∀ after, declared.addFragment fragment raw = .ok after → holds after
  | .addPacket packet raw => ∀ after, declared.addPacket packet raw = .ok after → holds after
  | .addLine owner site => ∀ after, declared.addLine owner site = .ok after → holds after
  | _ => True

namespace Workspace

/-- The workspace that an operation leaves, whether it succeeds or
fails. -/
def perform (workspace : Workspace) : Operation → Workspace
  | .registerFragment name site => (workspace.registerFragment name site).2
  | .registerPacket description header site =>
    (workspace.registerPacket description header site).2
  | .addFragment fragment raw => (workspace.addFragment fragment raw).2
  | .addPacket packet raw => (workspace.addPacket packet raw).2
  | .addLine owner site => (workspace.addLine owner site).2
  | .load source => (workspace.load source).2
  | .compileFragment name site => (workspace.compileFragment name site).2
  | .compilePacket header => (workspace.compilePacket header).2
  | .compileAll => workspace.compileAll.2
  | .record entry => workspace.record entry

/-- The workspaces that sessions lead to in which every operation was
`allowed` on the workspace it met. -/
inductive Reached (allowed : Workspace → Operation → Prop) : Workspace → Prop
  | start : Reached allowed {}
  | perform {workspace : Workspace} {operation : Operation}
      (before : Reached allowed workspace) (may : allowed workspace operation) :
      Reached allowed (workspace.perform operation)

/-- An operation leaves the results alone, or else the declarations, and
then the results advance. -/
theorem perform_cases (workspace : Workspace) (operation : Operation) :
    (workspace.perform operation).results = workspace.results ∨
      (workspace.perform operation).declared = workspace.declared ∧
        Advance workspace.declared workspace.results
          (workspace.perform operation).results := by
  cases operation with
  | registerFragment name site => exact .inl rfl
  | registerPacket description header site => exact .inl rfl
  | addFragment fragment raw => exact .inl rfl
  | addPacket packet raw => exact .inl rfl
  | addLine owner site => exact .inl rfl
  | load source => exact .inl rfl
  | record entry => exact .inl rfl
  | compileFragment name site =>
    obtain ⟨_, grown, same⟩ := compileFragment_ends workspace.declared name site workspace.results
    exact .inr ⟨rfl, .ofGrown grown same⟩
  | compilePacket header =>
    exact .inr ⟨rfl, (compilePacket_ends _ header workspace.results).2.1⟩
  | compileAll =>
    exact .inr ⟨rfl, (compileAll_ends _ workspace.results).2.1⟩

/-- What all changes of a load keep, an operation keeps. -/
theorem perform_keeps {holds : Declarations → Prop} {mayGrow : Owner → Prop}
    (keeps : LoadKeeps holds mayGrow) {workspace : Workspace} {operation : Operation}
    (h : holds workspace.declared) (may : operation.Keeps holds workspace.declared) :
    holds (workspace.perform operation).declared := by
  cases operation with
  | registerFragment name site => exact (keeps.declareFragment_ends name site h).1
  | registerPacket description header site =>
    exact (keeps.declarePacket_ends description header site h).1
  | load source => exact keeps.load_ends source h
  | addFragment fragment raw =>
    exact changeDeclarations_keeps (fun declared => declared.addFragment fragment raw) h may
  | addPacket packet raw =>
    exact changeDeclarations_keeps (fun declared => declared.addPacket packet raw) h may
  | addLine owner site =>
    exact changeDeclarations_keeps (fun declared => declared.addLine owner site) h may
  | compileFragment name site => exact h
  | compilePacket header => exact h
  | compileAll => exact h
  | record entry => exact h

/-- What holds of no expansions and is kept by `Grown` holds of the kept
expansions of every workspace that a session leads to. -/
theorem Reached.expansions {allowed : Workspace → Operation → Prop} {workspace : Workspace}
    (reached : Reached allowed workspace) {holds : Expansions → Prop} (start : holds ∅)
    (grow : ∀ fragments known after, holds known → Grown fragments known after → holds after) :
    holds workspace.results.expansions := by
  induction reached with
  | start => exact start
  | @perform workspace operation _ _ ih =>
    rcases perform_cases workspace operation with same | ⟨_, advance⟩
    · rw [same]; exact ih
    · exact grow _ _ _ ih advance.grown

/-! ## Sessions as lists -/

/-- Every operation of the session is allowed on the workspace it
meets. -/
def Session (allowed : Workspace → Operation → Prop) : Workspace → List Operation → Prop
  | _, [] => True
  | workspace, operation :: rest =>
    allowed workspace operation ∧ Session allowed (workspace.perform operation) rest

instance instDecidableSession (allowed : Workspace → Operation → Prop)
    [∀ workspace operation, Decidable (allowed workspace operation)] :
    ∀ workspace operations, Decidable (Session allowed workspace operations)
  | _, [] => .isTrue trivial
  | workspace, operation :: rest =>
    have := instDecidableSession allowed (workspace.perform operation) rest
    inferInstanceAs (Decidable (_ ∧ _))

theorem session_any (workspace : Workspace) (operations : List Operation) :
    Session Operation.Any workspace operations := by
  induction operations generalizing workspace with
  | nil => trivial
  | cons operation rest ih => exact ⟨trivial, ih _⟩

/-- A session leads on from a workspace that a session has led to. -/
theorem Reached.session {allowed : Workspace → Operation → Prop} {workspace : Workspace}
    {operations : List Operation} (reached : Reached allowed workspace)
    (session : Session allowed workspace operations) :
    Reached allowed (operations.foldl Workspace.perform workspace) := by
  induction operations generalizing workspace with
  | nil => exact reached
  | cons operation rest ih => exact ih (reached.perform session.1) session.2

/-- A small session. The packet has two branches, and one of them refers
to a fragment, which refers to another one that has been compiled. -/
def sampleSession : List Operation :=
  [.registerFragment "Point" ⟨1, "Fragment[Point]"⟩,
   .addLine (.fragment "Point") ⟨2, "x:$2"⟩,
   .compileFragment "Point" ⟨3, "Point"⟩,
   .registerFragment "Path" ⟨4, "Fragment[Path]"⟩,
   .addLine (.fragment "Path") ⟨5, "+ REP"⟩,
   .addLine (.fragment "Path") ⟨6, "+ Fragment[Point]"⟩,
   .addLine (.fragment "Path") ⟨7, "- REP"⟩,
   .registerPacket "Move" "6f" ⟨8, "Packet[Move]:6f"⟩,
   .addLine (.packet "6F") ⟨9, "id:$4"⟩,
   .addLine (.packet "6F") ⟨10, "+ SubCate"⟩,
   .addLine (.packet "6F") ⟨11, "time:$1"⟩,
   .addLine (.packet "6F") ⟨12, "SubCate[walk]:01"⟩,
   .addLine (.packet "6F") ⟨13, "+ Fragment[Path]"⟩,
   .addLine (.packet "6F") ⟨14, "speed:$1"⟩,
   .addLine (.packet "6F") ⟨15, "SubCate[rest]:02"⟩]

/-- The workspace that the small session leads to. -/
def sample : Workspace :=
  sampleSession.foldl Workspace.perform {}

theorem reached_sample : Reached Operation.Any sample :=
  Reached.start.session (session_any {} sampleSession)

/-- The packet of the small session. -/
def samplePacket : Packet where
  description := "Move"
  header := "6F"
  line := 8
  body := ⟨[⟨9, "id:$4"⟩, ⟨10, "+ SubCate"⟩, ⟨11, "time:$1"⟩, ⟨12, "SubCate[walk]:01"⟩,
    ⟨13, "+ Fragment[Path]"⟩, ⟨14, "speed:$1"⟩, ⟨15, "SubCate[rest]:02"⟩], by decide⟩

end Workspace

end PacketLayout
