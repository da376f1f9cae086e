/-
PacketLayout.Registry — the declarations of a layout, and what has been
compiled of them.

Fragments are known by their names and packets by their headers, in two
pools that have nothing to do with each other. Declarations are only
ever added: a name is declared once, and a body only gains lines. The
results of compiling are kept apart from the declarations, under the
same names, so a declaration that is added brings no result with it.
-/
import PacketLayout.Body
import PacketLayout.Field
import PacketLayout.Signature

namespace PacketLayout

/-! ## Declarations -/

/-- A named sequence of units and fields, for use in other bodies. -/
structure Fragment where
  name : String
  /-- The line of the header. -/
  line : Nat
  body : Body := .empty
  /-- Set while someone else is building the fragment. A reference to it
  then leads round in a circle. -/
  busy : Bool := false
  deriving DecidableEq

/-- A packet with its header in hexadecimal. -/
structure Packet where
  description : String
  header : String
  /-- The line of the header. -/
  line : Nat
  body : Body := .empty
  deriving DecidableEq

/-- Names the declaration that a body line belongs to. -/
inductive Owner where
  | fragment (name : String)
  | packet (header : String)
  deriving DecidableEq

/-- The declared fragments by name and packets by header, in the order
of their declarations. -/
structure Declarations where
  fragments : OrderedMap Fragment := ∅
  packets : OrderedMap Packet := ∅
  deriving DecidableEq

namespace Declarations

/-- Declares a fragment; `raw` is the text to blame if its name is
taken. -/
def addFragment (declared : Declarations) (fragment : Fragment) (raw : String) :
    Except Failure Declarations :=
  if declared.fragments.contains fragment.name then
    .error ((Cause.duplicateFragment fragment.name).atSite ⟨fragment.line, raw⟩)
  else
    .ok { declared with fragments := declared.fragments.insert fragment.name fragment }

/-- Declares a packet; `raw` is the text to blame if its header is
taken. -/
def addPacket (declared : Declarations) (packet : Packet) (raw : String) :
    Except Failure Declarations :=
  if declared.packets.contains packet.header then
    .error ((Cause.duplicatePacket packet.header).atSite ⟨packet.line, raw⟩)
  else
    .ok { declared with packets := declared.packets.insert packet.header packet }

/-- Adds a line to a body, or says why it cannot be added. -/
def addToBody (body : Body) (site : Site) : Except Failure Body :=
  match body.add? site with
  | some longer => .ok longer
  | none => .error ((Cause.duplicateLine site.line).atSite site)

/-- Adds a line to the body of a declaration. -/
def addLine (declared : Declarations) (owner : Owner) (site : Site) :
    Except Failure Declarations :=
  match owner with
  | .fragment name =>
    match declared.fragments.get? name with
    | some fragment => (addToBody fragment.body site).map fun body =>
        { declared with
          fragments := declared.fragments.insert name { fragment with body := body } }
    | none => .error (Cause.noDeclaration.atSite site)
  | .packet header =>
    match declared.packets.get? header with
    | some packet => (addToBody packet.body site).map fun body =>
        { declared with
          packets := declared.packets.insert header { packet with body := body } }
    | none => .error (Cause.noDeclaration.atSite site)

/-- The fragment of a name; `site` is the reference to blame if there is
none. -/
def fragment (declared : Declarations) (name : String) (site : Site) :
    Except Failure Fragment :=
  match declared.fragments.get? name with
  | some fragment => .ok fragment
  | none => .error ((Cause.undeclaredFragment name).atSite site)

end Declarations

/-! ## Results -/

/-- A fragment with everything it refers to put in its place. -/
structure Expansion where
  signature : Signature := []
  fields : List Field := []
  deriving DecidableEq

/-- One expansion behind another. -/
def Expansion.append (first second : Expansion) : Expansion :=
  ⟨first.signature ++ second.signature, first.fields ++ second.fields⟩

/-- The expansions found so far, by the names of the fragments. -/
abbrev Expansions := OrderedMap Expansion

/-- What has been compiled: the expansions of fragments, and the
signature sets of packets by their headers. -/
structure Results where
  expansions : Expansions := ∅
  packets : OrderedMap SignatureSet := ∅
  deriving DecidableEq

/-- How far the compilation of a fragment has come. -/
inductive FragmentState where
  | pending
  | busy
  | compiled (expansion : Expansion)
  deriving DecidableEq

/-- The state of a declared fragment. -/
def Results.fragmentState (results : Results) (fragment : Fragment) : FragmentState :=
  match results.expansions.get? fragment.name with
  | some expansion => .compiled expansion
  | none => if fragment.busy then .busy else .pending

end PacketLayout
