/-
PacketLayout.CommandLine.LogFilter — which log lines are shown.

A filter is a list of directives. Each sets a threshold for the topics
whose names start with its scope, or for all topics, and of the
directives that speak about a topic the one with the longest scope
decides. A filter can also ask that the text of a line contains a
pattern.

A filter is written as directives between commas, `scope=threshold`,
`scope` or `threshold`, and the pattern after a slash. What cannot be
read of it is remarked and left out.
-/
import PacketLayout.Journal
import PacketLayout.Text.Pattern.Reading

namespace PacketLayout.CommandLine

open Text

/-! ## Thresholds -/

/-- The least important level that is shown. -/
inductive Threshold where
  | off
  | error
  | warn
  | info
  | debug
  | trace
  deriving DecidableEq

namespace Threshold

/-- The thresholds by name. -/
def names : List (String × Threshold) :=
  [("OFF", off), ("ERROR", error), ("WARN", warn), ("INFO", info), ("DEBUG", debug),
   ("TRACE", trace)]

/-- The threshold with a name, in either case. -/
def ofName? (text : String) : Option Threshold :=
  (names.find? fun entry => equalIgnoringCase entry.1 text).map Prod.snd

/-- How much is shown. -/
def rank : Threshold → Nat
  | off => 0
  | error => 1
  | warn => 2
  | info => 3
  | debug => 4
  | trace => 5

/-- The threshold that a level reaches exactly. -/
def ofLevel : Level → Threshold
  | .error => error
  | .warn => warn
  | .info => info
  | .debug => debug

def admits (threshold : Threshold) (level : Level) : Bool :=
  (ofLevel level).rank ≤ threshold.rank

end Threshold

/-! ## Filters -/

/-- A threshold for the topics whose names start with `scope`, or for all
of them. -/
structure Directive where
  scope : Option String
  threshold : Threshold
  deriving DecidableEq

namespace Directive

def covers (directive : Directive) (topic : Topic) : Bool :=
  directive.scope.all fun scope => startsWith scope topic.name.toList

/-- How much of a name the scope fixes. -/
def weight (directive : Directive) : Nat :=
  directive.scope.elim 0 String.length

end Directive

structure LogFilter where
  directives : List Directive := []
  pattern : Option Pattern := none
  deriving DecidableEq

namespace LogFilter

/-- Puts a directive into the place of the one with the same scope, or
behind the others. -/
def replaceIn (directive : Directive) : List Directive → List Directive
  | [] => [directive]
  | other :: rest =>
    if other.scope = directive.scope then directive :: rest
    else other :: replaceIn directive rest

def set (filter : LogFilter) (directive : Directive) : LogFilter :=
  { filter with directives := replaceIn directive filter.directives }

/-- The directive with the longest scope, and the last of several. -/
def weightiest : List Directive → Option Directive
  | [] => none
  | directive :: rest =>
    match weightiest rest with
    | some other => if directive.weight ≤ other.weight then some other else some directive
    | none => some directive

/-- The threshold for a topic. Nothing is shown of a topic that no
directive speaks about. -/
def threshold (filter : LogFilter) (topic : Topic) : Threshold :=
  (weightiest (filter.directives.filter (·.covers topic))).elim .off Directive.threshold

def admits (filter : LogFilter) (line : LogLine) : Bool :=
  (filter.threshold line.topic).admits line.level
    && filter.pattern.all (·.occursIn line.text)

end LogFilter

/-! ## The written form -/

/-- What cannot be read of a written filter. -/
inductive FilterFault where
  /-- There is more than one slash. -/
  | slashes (text : String)
  | directive (text : String)
  | pattern (text : String) (fault : PatternFault)
  deriving DecidableEq

def FilterFault.message : FilterFault → String
  | .slashes text => "invalid logging spec '" ++ text ++ "' (too many '/'s)"
  | .directive text => "invalid logging spec '" ++ text ++ "'"
  | .pattern text fault => "invalid regex filter - " ++ fault.message text

/-- The remark about a fault. -/
def FilterFault.remark (fault : FilterFault) : String :=
  "warning: " ++ fault.message ++ ", ignoring it"

/-- Reads one directive, without white space around it. A word by itself
is a threshold for all topics, if it names one, and else a scope of which
everything is shown. -/
def Directive.read (text : List Char) : Except FilterFault Directive :=
  match pieces '=' text with
  | (word, []) =>
    match Threshold.ofName? (String.ofList word) with
    | some threshold => .ok ⟨none, threshold⟩
    | none => .ok ⟨some (String.ofList word), .trace⟩
  | (scope, [value]) =>
    let name := String.ofList (trim value)
    if name = "" then .ok ⟨some (String.ofList scope), .trace⟩
    else
      match Threshold.ofName? name with
      | some threshold => .ok ⟨some (String.ofList scope), threshold⟩
      | none => .error (.directive name)
  | _ => .error (.directive (String.ofList text))

namespace LogFilter

/-- Takes the next piece between commas. -/
def addWritten (read : LogFilter × List FilterFault) (piece : List Char) :
    LogFilter × List FilterFault :=
  match trim piece with
  | [] => read
  | text =>
    match Directive.read text with
    | .ok directive => (read.1.set directive, read.2)
    | .error fault => (read.1, read.2 ++ [fault])

/-- The filter with the directives of a text. -/
def ofDirectives (text : List Char) : LogFilter × List FilterFault :=
  match pieces ',' text with
  | (first, rest) => (first :: rest).foldl addWritten ({}, [])

/-- Reads a written filter. -/
def read (text : String) : LogFilter × List FilterFault :=
  match pieces '/' text.toList with
  | (directives, []) => ofDirectives directives
  | (directives, [written]) =>
    let (filter, faults) := ofDirectives directives
    match Pattern.read (String.ofList written) with
    | .ok pattern => ({ filter with pattern := some pattern }, faults)
    | .error fault => (filter, faults ++ [.pattern (String.ofList written) fault])
  | _ => ({}, [.slashes text])

end LogFilter

end PacketLayout.CommandLine
