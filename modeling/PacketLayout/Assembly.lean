/-
PacketLayout.Assembly — from the lines of a packet to its signatures.

A packet has a main body and any number of branches. Units of the main
body stand around the placeholder, and so do its fields; each branch has
units and fields of its own. In the end every branch gives one
signature, the main body with the branch in the place of the
placeholder, and its fields come between those that stand before and
after the placeholder.

Two rules cut across this. A fragment always goes to the main body and
its fields to those before the placeholder, wherever the reference
stands. And without a placeholder the branches are left out, so that the
packet has the one signature of its main body.

The pieces are collected line by line in an `Assembly`. A line is
refused as soon as it cannot belong to a well-formed packet; a branch is
looked at when the next one is opened, or at the end.
-/
import PacketLayout.Expansion

namespace PacketLayout

open Text

/-- A branch: its description, the site of its header, and what has been
collected of it. -/
structure Branch where
  description : String
  site : Site
  signature : Signature := []
  fields : List Field := []
  deriving DecidableEq

/-- Adds a unit and its field. -/
def Branch.add (branch : Branch) (token : Token) (field : Field) : Branch :=
  { branch with
    signature := branch.signature ++ [token]
    fields := branch.fields ++ [field] }

/-- What has been collected of a packet. -/
structure Assembly where
  /-- The line of the placeholder, once it has been seen. -/
  placeholder : Option Nat := none
  /-- The main body has been ended by `pack`. -/
  packed : Bool := false
  /-- The site of the `+ REP` that is still open. -/
  openRepeat : Option Site := none
  main : Signature := []
  /-- The fields before the placeholder. -/
  before : List Field := []
  /-- The fields after the placeholder. -/
  after : List Field := []
  /-- The finished branches that are not blank. -/
  branches : List Branch := []
  /-- The branch that lines are added to. -/
  current : Option Branch := none
  descriptions : List String := []
  discriminators : List String := []
  deriving DecidableEq

namespace Assembly

variable {σ : Type}

/-- Lines now belong to neither a branch nor the main body. -/
def outside (made : Assembly) : Bool :=
  made.packed && made.current.isNone

/-- Adds a unit and its field to the open branch, or else to the main
body. -/
def add (made : Assembly) (token : Token) (field : Field) : Assembly :=
  match made.current with
  | some branch => { made with current := some (branch.add token field) }
  | none =>
    if made.placeholder.isSome then
      { made with main := made.main ++ [token], after := made.after ++ [field] }
    else
      { made with main := made.main ++ [token], before := made.before ++ [field] }

/-- Adds a fragment to the main body, its fields before the
placeholder. -/
def splice (made : Assembly) (expansion : Expansion) : Assembly :=
  { made with
    main := made.main ++ expansion.signature
    before := made.before ++ expansion.fields }

/-- Marks the place of the branches. -/
def addPlaceholder (made : Assembly) (site : Site) : Except Failure Assembly :=
  if made.placeholder.isSome then .error (Cause.secondPlaceholder.atSite site)
  else if made.packed || made.current.isSome then
    .error (Cause.placeholderAfterBody.atSite site)
  else
    .ok { made with
      main := made.main ++ [.subCategory]
      placeholder := some site.line }

/-- Ends the main body. In a branch the line means nothing, but no main
body goes on after it. -/
def pack (made : Assembly) : Except Failure Assembly :=
  match made.current, made.openRepeat with
  | none, some opened => .error (Cause.unclosedRepeat.atSite opened)
  | _, _ => .ok { made with packed := true }

/-- Opens a repeated group. -/
def startRepeat (made : Assembly) (site : Site) : Except Failure Assembly :=
  if made.openRepeat.isSome then .error (Cause.nestedRepeat.atSite site)
  else if made.outside then .error (Cause.repeatOutsideBody.atSite site)
  else .ok { made.add .repeatStart .placeholder with openRepeat := some site }

/-- Closes a repeated group. -/
def endRepeat (made : Assembly) (site : Site) : Except Failure Assembly :=
  if made.openRepeat.isNone then .error (Cause.unopenedRepeat.atSite site)
  else if made.outside then .error (Cause.repeatOutsideBody.atSite site)
  else .ok { made.add .repeatEnd .placeholder with openRepeat := none }

/-- Finishes the open branch, if there is one. A blank branch is dropped
with a warning; two branches with one signature are a failure. -/
def closeBranch (made : Assembly) : Job σ Assembly :=
  match made.current with
  | none => pure made
  | some branch => do
    let closed := { made with current := none }
    if branch.signature.isBlank then
      Job.report [.warning branch.site.line .blankBranch (some branch.site.raw)]
      pure closed
    else
      let key := branch.signature.render
      if made.branches.any fun other => other.signature.render == key then
        Job.fail ((Cause.duplicateBranchSignature key).atSite branch.site)
      else
        pure { closed with branches := made.branches ++ [branch] }

/-- Notes the description of a new branch. -/
def noteDescription (made : Assembly) (description : String) (site : Site) :
    Except Failure Assembly :=
  if description.isEmpty then .ok made
  else if made.descriptions.contains description then
    .error ((Cause.duplicateBranchDescription description).atSite site)
  else .ok { made with descriptions := made.descriptions ++ [description] }

/-- Makes `branch` the open branch, with its discriminator as the first
unit, if it has one. -/
def startBranch (made : Assembly) (branch : Branch) (discriminator : Option String) :
    Except Failure Assembly :=
  match discriminator with
  | none => .ok { made with current := some branch }
  | some bytes =>
    if made.discriminators.any fun other => equalIgnoringCase other bytes then
      .error ((Cause.duplicateBranchDiscriminator bytes).atSite branch.site)
    else
      .ok { made with
        discriminators := made.discriminators ++ [bytes]
        current := some (branch.add (.hex bytes) .discriminator) }

/-- Opens a branch. -/
def openBranch (made : Assembly) (header : BranchHeader) (site : Site) :
    Job σ Assembly :=
  match made.openRepeat with
  | some opened => Job.fail (Cause.unclosedRepeat.atSite opened)
  | none => do
    let closed ← made.closeBranch
    let noted ← Job.ofExcept (closed.noteDescription header.description site)
    let started ← Job.ofExcept
      (noted.startBranch { description := header.description, site } header.discriminator)
    Job.report [.info site.line (.branchOpened header.description)]
    pure started

/-- Adds one line of the packet; `resolve` finds the expansion of a
fragment that is referred to. -/
def addLine (resolve : String → Site → Job σ Expansion) (made : Assembly)
    (site : Site) : Job σ Assembly := do
  match ← BodyLine.readAt site with
  | .field line => pure (made.add line.token line.field)
  | .branch header => made.openBranch header site
  | .control (.fragmentRef name) => do
    let expansion ← resolve name site
    pure (made.splice expansion)
  | .control .placeholder => Job.ofExcept (made.addPlaceholder site)
  | .control .repeatStart => Job.ofExcept (made.startRepeat site)
  | .control .repeatEnd => Job.ofExcept (made.endRepeat site)
  | .control .pack => Job.ofExcept made.pack
  | .unrecognized => Job.fail ((Cause.invalidCode .packet).atSite site)

/-- The entry that a branch gives. -/
def entry (made : Assembly) (branch : Branch) : String × SignatureEntry :=
  ((Signature.expand made.main branch.signature).render,
    ⟨some branch.description, made.before ++ branch.fields ++ made.after⟩)

/-- The signatures of the branches, in order. -/
def branchEntries (made : Assembly) : SignatureSet :=
  made.branches.foldl
    (fun set branch => set.insert (made.entry branch).1 (made.entry branch).2) ∅

/-- The signatures of a packet without a placeholder: the main body
alone. -/
def mainEntry (made : Assembly) : SignatureSet :=
  OrderedMap.empty.insert (Signature.render made.main) ⟨none, made.before⟩

/-- The warning that a packet without a placeholder gives: its branches
are left out, if it has any. -/
def ignoredBranches (made : Assembly) : Journal :=
  match made.current with
  | some branch => [.warning branch.site.line .branchesIgnored (some branch.site.raw)]
  | none => []

/-- The warning that a placeholder on `line` gives if there is nothing to
put in its place. -/
def missingBranches (made : Assembly) (line : Nat) : Journal :=
  if made.branches.isEmpty then [.warning line .noBranchBody none] else []

/-- Ends the packet. -/
def finish (made : Assembly) : Job σ SignatureSet :=
  match made.openRepeat, made.placeholder with
  | some opened, _ => Job.fail (Cause.unclosedRepeat.atSite opened)
  | none, none => do
    Job.report made.ignoredBranches
    pure made.mainEntry
  | none, some line => do
    let closed ← made.closeBranch
    Job.report (closed.missingBranches line)
    pure closed.branchEntries

end Assembly

/-- The signatures that the lines of a packet give. -/
def assemble (fragments : OrderedMap Fragment) (body : Body) :
    Job Expansions SignatureSet := do
  let made ← body.lines.foldlM (Assembly.addLine (resolve fragments [])) {}
  made.finish

end PacketLayout
