/-
PacketLayout.Compilation — compiling what has been declared.

Compiling reads the declarations and adds to the results. A fragment or
packet that has been compiled is not compiled again. A failure leaves
the results that were found before it: fragments that were finished on
the way stay finished, and the packet that failed has no result.
-/
import PacketLayout.Assembly

namespace PacketLayout

open Text

/-- Work on the expansions alone. -/
def onExpansions {α : Type} (job : Job Expansions α) : Job Results α :=
  job.zoom Results.expansions fun results expansions => { results with expansions }

/-- Compiles a fragment, which is referred to at `site`. -/
def compileFragment (declared : Declarations) (name : String) (site : Site) :
    Job Results Expansion :=
  onExpansions (resolve declared.fragments [] name site)

/-- Notes the signatures of a packet as its result. -/
def recordPacket (header : String) (set : SignatureSet) : Job Results Unit := do
  Job.report (set.keys.map fun key => .trace (.packetKey header key))
  let results ← Job.get
  Job.set { results with packets := results.packets.insert header set }

/-- Compiles the packet with a header, which may be written in either
case. -/
def compilePacket (declared : Declarations) (header : String) : Job Results Unit :=
  let header := upper header
  match declared.packets.get? header with
  | none => Job.fail ((Cause.undeclaredPacket header).atSite ⟨0, header⟩)
  | some packet => do
    let results ← Job.get
    if results.packets.contains header then pure ()
    else do
      Job.report [.info packet.line (.packetStarted header packet.description)]
      let set ← onExpansions (assemble declared.fragments packet.body)
      recordPacket header set

/-- Compiles a declared fragment for its own sake. -/
def compileDeclared (declared : Declarations) (fragment : Fragment) : Job Results Unit := do
  let _ ← compileFragment declared fragment.name ⟨fragment.line, fragment.name⟩
  pure ()

/-- Compiles all fragments, then all packets, each in the order of their
declarations, up to the first failure. -/
def compileInOrder (declared : Declarations) : Job Results Unit := do
  declared.fragments.values.forM (compileDeclared declared)
  declared.packets.keys.forM (compilePacket declared)

/-- Compiles everything; a failure is recorded. -/
def compileAll (declared : Declarations) : Job Results Unit :=
  (compileInOrder declared).recordingFailure

end PacketLayout
