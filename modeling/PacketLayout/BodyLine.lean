/-
PacketLayout.BodyLine — what a line of a body can be.

A line is tried as a field line first. Only what is none is looked at as
a branch header, then as a control line. A line of no known form is not
an error yet: what it means depends on the body it stands in.
-/
import PacketLayout.BranchHeader
import PacketLayout.ControlLine
import PacketLayout.FieldLine
import PacketLayout.Job

namespace PacketLayout

open Text

inductive BodyLine where
  | field (line : FieldLine)
  | branch (header : BranchHeader)
  | control (line : ControlLine)
  | unrecognized
  deriving DecidableEq

namespace BodyLine

/-- Reads a line of a body. -/
def read (text : List Char) : Except Cause BodyLine :=
  match FieldLine.read text with
  | .error cause => .error cause
  | .ok (some line) => .ok (.field line)
  | .ok none =>
    if startsWith "SubCate[" text then (BranchHeader.read text).map .branch
    else
      match ControlLine.read? text with
      | some line => .ok (.control line)
      | none => .ok .unrecognized

/-- The remarks that reading the line gave. -/
def remarks : BodyLine → List Remark
  | .field line => line.remarks
  | _ => []

/-- Reads the line at a site: its remarks are reported at the line's
number, and a cause of failure is blamed on the line itself. -/
def readAt {σ : Type} (site : Site) : Job σ BodyLine :=
  match read site.raw.toList with
  | .error cause => Job.fail (cause.atSite site)
  | .ok line => do
    Job.report (line.remarks.map fun remark => remark.entry site.line)
    pure line

end BodyLine

end PacketLayout
