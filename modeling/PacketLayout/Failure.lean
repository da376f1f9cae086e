/-
PacketLayout.Failure — what stops a compilation, and where.

A failure is a cause with the source line it is blamed on: its number
and its text. The causes carry the names and texts that their messages
quote; the wording itself is in `Cause.message` alone.
-/
namespace PacketLayout

/-- The two kinds of declaration of a layout. -/
inductive DeclarationKind where
  | fragment
  | packet
  deriving DecidableEq

def DeclarationKind.name : DeclarationKind → String
  | .fragment => "Fragment"
  | .packet => "Packet"

/-- Why a compilation stops. -/
inductive Cause where
  /-- A line stands outside the parser section. -/
  | outsideSection
  /-- A body line stands before any declaration. -/
  | noDeclaration
  | malformedFragmentHeader
  | malformedPacketHeader
  | duplicateFragment (name : String)
  | duplicatePacket (header : String)
  /-- A declaration already has a line of this number. -/
  | duplicateLine (number : Nat)
  | undeclaredFragment (name : String)
  | undeclaredPacket (header : String)
  /-- A fragment refers to itself, along this chain of names. -/
  | fragmentCycle (name : String) (chain : List String)
  | invalidToken (text : String)
  | invalidPadding (text : String)
  /-- A line has no meaning in a body of this kind. -/
  | invalidCode (place : DeclarationKind)
  | secondPlaceholder
  | placeholderAfterBody
  | malformedBranch
  | nonHexDiscriminator (text : String)
  | duplicateBranchDescription (description : String)
  | duplicateBranchDiscriminator (discriminator : String)
  | duplicateBranchSignature (signature : String)
  | nestedRepeat
  | unopenedRepeat
  | repeatOutsideBody
  | unclosedRepeat
  deriving DecidableEq

/-- The wording of a cause. -/
def Cause.message : Cause → String
  | .outsideSection => "Unexpected line outside <parser> tag"
  | .noDeclaration => "Unexpected line before Packet / Fragment declaration"
  | .malformedFragmentHeader => "Malformed Fragment declaration"
  | .malformedPacketHeader => "Malformed Packet declaration"
  | .duplicateFragment name => "Duplicated Fragment[" ++ name ++ "]"
  | .duplicatePacket header => "Duplicated Packet header [" ++ header ++ "]"
  | .duplicateLine number =>
    "Duplicated line number " ++ toString number ++ " within one declaration"
  | .undeclaredFragment name => "Fragment[" ++ name ++ "] referenced but never declared"
  | .undeclaredPacket header => "Packet[" ++ header ++ "] was never declared"
  | .fragmentCycle name chain =>
    "Fragment[" ++ name ++ "] references itself (cycle: " ++ " -> ".intercalate chain ++ ")"
  | .invalidToken text => "Invalid signature token [" ++ text ++ "]"
  | .invalidPadding text =>
    "Invalid padding size [" ++ text ++ "] (integer up to 4096 expected)"
  | .invalidCode place => "Invalid code for " ++ place.name
  | .secondPlaceholder => "Only one \"+ SubCate\" is allowed per packet"
  | .placeholderAfterBody =>
    "\"+ SubCate\" cannot appear after the packet body ended "
      ++ "(no sub-category within a sub-category)"
  | .malformedBranch =>
    "Invalid SubCate declaration (needs a description or a discriminator byte)"
  | .nonHexDiscriminator text => "Non-hex discriminator byte [" ++ text ++ "] for SubCate"
  | .duplicateBranchDescription description =>
    "Duplicated SubCate description [" ++ description ++ "] within the same packet"
  | .duplicateBranchDiscriminator discriminator =>
    "Duplicated SubCate discriminator byte [" ++ discriminator ++ "] within the same packet"
  | .duplicateBranchSignature signature =>
    "Two SubCate branches compile to the same signature [" ++ signature ++ "]"
  | .nestedRepeat => "Cannot use \"+ REP\" before the previous repeatable start tag ends"
  | .unopenedRepeat => "Cannot use \"- REP\" before \"+ REP\""
  | .repeatOutsideBody => "Repeatable tag used outside Packet/SubCate body"
  | .unclosedRepeat => "\"+ REP\" is never closed by \"- REP\""

/-- A place in the source: a line number, and the text that stands
there. The lines of a body are kept as such places. -/
structure Site where
  line : Nat
  raw : String
  deriving DecidableEq

/-- A cause and the place it is blamed on. -/
structure Failure where
  cause : Cause
  site : Site
  deriving DecidableEq

/-- Blames a cause on a place. -/
def Cause.atSite (cause : Cause) (site : Site) : Failure :=
  ⟨cause, site⟩

/-- A failure in one line: the cause, then its place. -/
def Failure.message (failure : Failure) : String :=
  failure.cause.message ++ " [@Line:" ++ toString failure.site.line ++ "] Raw: "
    ++ failure.site.raw

end PacketLayout
