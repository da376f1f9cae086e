/-
PacketLayout.Workspace — declarations, results and journal in one place.

A workspace is what a user of the library works with. Each operation
answers and leaves a workspace behind, whether it succeeds or fails; the
journal keeps everything that has been reported, in order.

`build` is the whole way from a source to a table: load it, compile
everything, and collect the results. It stops at the first failure,
which is then the last entry of the journal.
-/
import PacketLayout.Compilation
import PacketLayout.Loading
import PacketLayout.SignatureTable

namespace PacketLayout

/-- The state of a user's work. -/
structure Workspace where
  declared : Declarations := {}
  results : Results := {}
  journal : Journal := []
  deriving DecidableEq

namespace Workspace

variable {α : Type}

/-! ## Work on the parts -/

/-- Does work on the declarations. -/
def onDeclarations (workspace : Workspace) (job : Job Declarations α) :
    Except Failure α × Workspace :=
  let outcome := job workspace.declared
  (outcome.result,
    { workspace with
      declared := outcome.state
      journal := workspace.journal ++ outcome.entries })

/-- Does work on the results. -/
def onResults (workspace : Workspace) (job : Job Results α) :
    Except Failure α × Workspace :=
  let outcome := job workspace.results
  (outcome.result,
    { workspace with
      results := outcome.state
      journal := workspace.journal ++ outcome.entries })

/-- Adds an entry to the journal. -/
def record (workspace : Workspace) (entry : Entry) : Workspace :=
  { workspace with journal := workspace.journal ++ [entry] }

/-! ## Operations -/

def registerFragment (workspace : Workspace) (name : String) (site : Site) :
    Except Failure Owner × Workspace :=
  workspace.onDeclarations (declareFragment name site)

def registerPacket (workspace : Workspace) (description header : String) (site : Site) :
    Except Failure Owner × Workspace :=
  workspace.onDeclarations (declarePacket description header site)

/-- Adds a fragment as it is, without a journal entry. -/
def addFragment (workspace : Workspace) (fragment : Fragment) (raw : String) :
    Except Failure Unit × Workspace :=
  workspace.onDeclarations
    (changeDeclarations fun declared => declared.addFragment fragment raw)

/-- Adds a packet as it is, without a journal entry. Its header is not
put in capitals. -/
def addPacket (workspace : Workspace) (packet : Packet) (raw : String) :
    Except Failure Unit × Workspace :=
  workspace.onDeclarations
    (changeDeclarations fun declared => declared.addPacket packet raw)

def addLine (workspace : Workspace) (owner : Owner) (site : Site) :
    Except Failure Unit × Workspace :=
  workspace.onDeclarations (declareLine owner site)

def load (workspace : Workspace) (source : String) : Except Failure Unit × Workspace :=
  workspace.onDeclarations (PacketLayout.load source)

def compileFragment (workspace : Workspace) (name : String) (site : Site) :
    Except Failure Expansion × Workspace :=
  workspace.onResults (PacketLayout.compileFragment workspace.declared name site)

def compilePacket (workspace : Workspace) (header : String) :
    Except Failure Unit × Workspace :=
  workspace.onResults (PacketLayout.compilePacket workspace.declared header)

def compileAll (workspace : Workspace) : Except Failure Unit × Workspace :=
  workspace.onResults (PacketLayout.compileAll workspace.declared)

/-- The table of what has been compiled so far. -/
def table (workspace : Workspace) (timestamp : Nat) : SignatureTable :=
  .assemble workspace.declared workspace.results timestamp

/-- Loads a source and compiles everything; the answer is the table. -/
def build (workspace : Workspace) (source : String) (timestamp : Nat) :
    Except Failure SignatureTable × Workspace :=
  match workspace.load source with
  | (.error failure, loaded) => (.error failure, loaded)
  | (.ok _, loaded) =>
    match loaded.compileAll with
    | (.error failure, compiled) => (.error failure, compiled)
    | (.ok _, compiled) => (.ok (compiled.table timestamp), compiled)

end Workspace

end PacketLayout
