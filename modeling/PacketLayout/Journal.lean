/-
PacketLayout.Journal — the record of what a compilation did.

Every operation reports what happened as journal entries, in order.
Most entries are diagnostics: progress, warnings, and the failure that
ended the work, each at a source line. The others are traces, which only
show in a verbose log. The journal is the single account of a run: the
list of diagnostics, the warning count and the log are all read off it.

* `diagnostics_append`, `warnings_append`: what is read off a journal is
  read off its parts.
-/
import PacketLayout.Failure

namespace PacketLayout

/-! ## Diagnostics -/

/-- Work that was begun or done. -/
inductive Progress where
  | fragmentDeclared (name : String)
  | packetDeclared (header description : String)
  | branchOpened (description : String)
  | fragmentStarted (name : String)
  | packetStarted (header description : String)
  /-- A remark of the caller. -/
  | note (text : String)
  deriving DecidableEq

/-- The qualifiers a field line can carry. -/
inductive QualifierKind where
  | reference
  | function
  | type
  | param
  deriving DecidableEq

def QualifierKind.keyword : QualifierKind → String
  | .reference => "R"
  | .function => "Fn"
  | .type => "T"
  | .param => "P"

/-- Something was skipped, and the work went on. -/
inductive Warning where
  | unreadQualifier (kind : QualifierKind)
  | unknownDatabase (symbol : String)
  | unknownQualifier (text : String)
  /-- A branch has neither a discriminator nor a body. -/
  | blankBranch
  /-- A packet has branches but no place to put them. -/
  | branchesIgnored
  /-- A packet has a place for branches, and no branch with a body. -/
  | noBranchBody
  /-- A warning of the caller. -/
  | note (text : String)
  deriving DecidableEq

/-- A text filled up with spaces on the right to the given length. -/
def padRight (length : Nat) (text : String) : String :=
  text ++ String.ofList (List.replicate (length - text.toList.length) ' ')

def Progress.message : Progress → String
  | .fragmentDeclared name => "New Fragment[" ++ name ++ "]"
  | .packetDeclared header description =>
    "New Packet[" ++ padRight 4 header ++ "] Desc[" ++ description ++ "]"
  | .branchOpened description => "New Subcate[" ++ description ++ "]"
  | .fragmentStarted name => "Building Signature for Fragment[" ++ name ++ "]"
  | .packetStarted header description =>
    "Building Signature for Packet[" ++ padRight 4 header ++ "][" ++ description ++ "]"
  | .note text => text

def Warning.message : Warning → String
  | .unreadQualifier kind => "Failed to parse \"" ++ kind.keyword ++ "\" option"
  | .unknownDatabase symbol =>
    "Failed to parse \"R\" option - Unknown Reference Database: [" ++ symbol ++ "]"
  | .unknownQualifier text => "Skipped unknown info [" ++ text ++ "]"
  | .blankBranch => "Skipped invalid SubCate declaration - No actual signature/body"
  | .branchesIgnored =>
    "SubCate declared without \"+ SubCate\" placeholder; branches ignored"
  | .noBranchBody =>
    "\"+ SubCate\" used but no SubCate branch has a body; no signature emitted"
  | .note text => text

/-- What a diagnostic tells. -/
inductive Notice where
  | info (what : Progress)
  | warning (what : Warning)
  | fatal (what : Cause)
  deriving DecidableEq

def Notice.message : Notice → String
  | .info what => what.message
  | .warning what => what.message
  | .fatal what => what.message

/-- A notice at a source line, with the text it is about, if any. -/
structure Diagnostic where
  line : Nat
  notice : Notice
  raw : Option String
  deriving DecidableEq

namespace Diagnostic

def isWarning (diagnostic : Diagnostic) : Bool :=
  match diagnostic.notice with
  | .warning _ => true
  | _ => false

def isFatal (diagnostic : Diagnostic) : Bool :=
  match diagnostic.notice with
  | .fatal _ => true
  | _ => false

/-- The diagnostic in one line: its place, its message, its text. -/
def render (diagnostic : Diagnostic) : String :=
  let raw := match diagnostic.raw with
    | some text => " Raw: " ++ text
    | none => ""
  "[@Line:" ++ toString diagnostic.line ++ "] " ++ diagnostic.notice.message ++ raw

/-- The record of the failure that ended the work. -/
def ofFailure (failure : Failure) : Diagnostic :=
  ⟨failure.site.line, .fatal failure.cause, some failure.site.raw⟩

end Diagnostic

/-! ## Entries -/

/-- A result worth showing in a verbose log. -/
inductive Trace where
  | fragmentBuilt (name signature : String)
  | packetKey (header signature : String)
  deriving DecidableEq

def Trace.message : Trace → String
  | .fragmentBuilt name signature => "Fragment[" ++ name ++ "] => \"" ++ signature ++ "\""
  | .packetKey header signature => "Packet[" ++ header ++ "] => \"" ++ signature ++ "\""

inductive Entry where
  | diagnostic (what : Diagnostic)
  | trace (what : Trace)
  deriving DecidableEq

namespace Entry

def info (line : Nat) (what : Progress) : Entry :=
  .diagnostic ⟨line, .info what, none⟩

def warning (line : Nat) (what : Warning) (raw : Option String) : Entry :=
  .diagnostic ⟨line, .warning what, raw⟩

def fatal (failure : Failure) : Entry :=
  .diagnostic (.ofFailure failure)

def diagnostic? : Entry → Option Diagnostic
  | .diagnostic what => some what
  | .trace _ => none

end Entry

/-- Entries in the order in which they were reported. -/
abbrev Journal := List Entry

namespace Journal

def diagnostics (journal : Journal) : List Diagnostic :=
  journal.filterMap Entry.diagnostic?

def warnings (journal : Journal) : List Diagnostic :=
  journal.diagnostics.filter Diagnostic.isWarning

def warningCount (journal : Journal) : Nat :=
  journal.warnings.length

theorem diagnostics_append (first second : Journal) :
    diagnostics (first ++ second) = diagnostics first ++ diagnostics second :=
  List.filterMap_append

theorem warnings_append (first second : Journal) :
    warnings (first ++ second) = warnings first ++ warnings second := by
  simp [warnings, diagnostics_append]

end Journal

/-! ## The log -/

/-- How much a log line matters. -/
inductive Level where
  | error
  | warn
  | info
  | debug
  deriving DecidableEq

def Level.name : Level → String
  | .error => "ERROR"
  | .warn => "WARN"
  | .info => "INFO"
  | .debug => "DEBUG"

/-- The part of the work that a log line comes from. -/
inductive Topic where
  | command
  | diagnostics
  | fragments
  | packets
  deriving DecidableEq

/-- The name of a topic, which starts with those of the topics around
it. -/
def Topic.name : Topic → String
  | .command => "sigbuilder"
  | .diagnostics => "sigbuilder::diag"
  | .fragments => "sigbuilder::fragment"
  | .packets => "sigbuilder::packet"

/-- A line of the log. -/
structure LogLine where
  level : Level
  topic : Topic
  text : String
  deriving DecidableEq

/-- A log line as it is printed, its level filled up to five letters. -/
def LogLine.render (line : LogLine) : String :=
  "[" ++ padRight 5 line.level.name ++ "] " ++ line.text

def Notice.level : Notice → Level
  | .info _ => .info
  | .warning _ => .warn
  | .fatal _ => .error

def Trace.topic : Trace → Topic
  | .fragmentBuilt .. => .fragments
  | .packetKey .. => .packets

def Entry.logLine : Entry → LogLine
  | .diagnostic what => ⟨what.notice.level, .diagnostics, what.render⟩
  | .trace what => ⟨.debug, what.topic, what.message⟩

def Journal.log (journal : Journal) : List LogLine :=
  journal.map Entry.logLine

end PacketLayout
