/-
PacketLayout.Loading — from a source to declarations.

Only the code between `<parser>` and `</parser>` counts, and there may be
several such sections; code outside is a failure. Within a section a
header declares a fragment or a packet, and any other line belongs to
the declaration before it. The end of a section ends the declaration.

Loading stops at the first line that is wrong. What was declared before
that line stays declared.
-/
import PacketLayout.DeclarationHeader
import PacketLayout.Job
import PacketLayout.Registry
import PacketLayout.SourceLine

namespace PacketLayout

open Text

/-! ## Declaring -/

/-- Changes the declarations, or fails and leaves them alone. -/
def changeDeclarations (change : Declarations → Except Failure Declarations) :
    Job Declarations Unit := do
  let changed ← Job.ofExcept (change (← Job.get))
  Job.set changed

/-- Declares a fragment. -/
def declareFragment (name : String) (site : Site) : Job Declarations Owner := do
  changeDeclarations fun declared => declared.addFragment { name, line := site.line } site.raw
  Job.report [.info site.line (.fragmentDeclared name)]
  pure (.fragment name)

/-- Declares a packet under its header in capitals. -/
def declarePacket (description header : String) (site : Site) :
    Job Declarations Owner := do
  let header := upper header
  changeDeclarations fun declared =>
    declared.addPacket { description, header, line := site.line } site.raw
  Job.report [.info site.line (.packetDeclared header description)]
  pure (.packet header)

/-- Adds a line to the body of a declaration. -/
def declareLine (owner : Owner) (site : Site) : Job Declarations Unit :=
  changeDeclarations fun declared => declared.addLine owner site

/-! ## Loading -/

/-- Where in a source a line stands: in a parser section or not, and in
the body of which declaration. -/
structure Position where
  inSection : Bool := false
  owner : Option Owner := none
  deriving DecidableEq

namespace Position

/-- Loads a line of a parser section that is not a tag. -/
def loadCode (position : Position) (site : Site) : Job Declarations Position :=
  let code := site.raw.toList
  if startsWith "Fragment[" code then
    match readFragmentHeader? code with
    | some name => do
      let owner ← declareFragment name site
      pure { position with owner := some owner }
    | none => Job.fail (Cause.malformedFragmentHeader.atSite site)
  else if startsWith "Packet[" code then
    match readPacketHeader? code with
    | some packet => do
      let owner ← declarePacket packet.description packet.header site
      pure { position with owner := some owner }
    | none => Job.fail (Cause.malformedPacketHeader.atSite site)
  else
    match position.owner with
    | some owner => do
      declareLine owner site
      pure position
    | none => Job.fail (Cause.noDeclaration.atSite site)

/-- Loads a line of code. -/
def loadLine (position : Position) (site : Site) : Job Declarations Position :=
  if site.raw = "<parser>" then pure { position with inSection := true }
  else if site.raw = "</parser>" then pure {}
  else if position.inSection then position.loadCode site
  else Job.fail (Cause.outsideSection.atSite site)

end Position

/-- Loads the code of a source, from outside any section. -/
def loadLines (code : List Site) : Job Declarations Unit := do
  let _ ← code.foldlM Position.loadLine {}
  pure ()

/-- Loads a source; a failure is recorded. -/
def load (source : String) : Job Declarations Unit :=
  (loadLines (codeLines source)).recordingFailure

end PacketLayout
