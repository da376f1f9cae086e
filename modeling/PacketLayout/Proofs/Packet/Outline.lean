/-
PacketLayout.Proofs.Packet.Outline — the parts of a packet, read off its
lines.

The lines of a packet are looked at here all at once, after each has been
read: which of them stand before the first branch, which before the
placeholder, and which belong to which branch. Each part of the packet is
then a list over some of the lines, and `entries` puts the parts together.
Nothing is collected and nothing is refused on the way.

Two rules shape the parts. A line of the main body stands before the first
branch header. A reference to a fragment counts wherever it stands.

* `main_concat`, `before_concat`, `after_concat`: what one more line adds
  to the parts of the main body.
* `writtenBranches_concat_header`, `writtenBranches_concat`: one more line
  opens a branch, or goes to the last one.
-/
import PacketLayout.Expansion
import PacketLayout.Proofs.Expansion.Afresh

namespace PacketLayout

/-! ## Lines -/

namespace BodyLine

def isHeader : BodyLine → Bool
  | .branch _ => true
  | _ => false

def isPlaceholder : BodyLine → Bool
  | .control .placeholder => true
  | _ => false

/-- What a line adds by itself: a unit and the field that stands for
it. -/
def own : BodyLine → Expansion
  | .field line => ⟨[line.token], [line.field]⟩
  | .control .repeatStart => ⟨[.repeatStart], [.placeholder]⟩
  | .control .repeatEnd => ⟨[.repeatEnd], [.placeholder]⟩
  | _ => {}

/-- What a line brings in from a fragment, where `flat` says what the
fragments come to. -/
def spliced (flat : String → Expansion) : BodyLine → Expansion
  | .control (.fragmentRef name) => flat name
  | _ => {}

/-- The units a line of the main body gives. -/
def mainUnits (flat : String → Expansion) : BodyLine → Signature
  | .control .placeholder => [.subCategory]
  | line => line.own.signature ++ (line.spliced flat).signature

end BodyLine

/-- What a branch header gives: the bytes that tell the branch from the
others, if it has any. -/
def BranchHeader.lead (header : BranchHeader) : Expansion :=
  match header.discriminator with
  | some bytes => ⟨[.hex bytes], [.discriminator]⟩
  | none => {}

/-! ## Branches -/

/-- A branch as it is written: its header, and the lines up to the next
header. -/
structure WrittenBranch where
  header : BranchHeader
  lines : List BodyLine

namespace WrittenBranch

/-- The units and the fields of a branch. -/
def content (branch : WrittenBranch) : Expansion :=
  branch.header.lead.append (.concat (branch.lines.map BodyLine.own))

/-- The text of a branch. -/
def text (branch : WrittenBranch) : String :=
  branch.content.signature.render

/-- The branch with one more line. -/
def extend (branch : WrittenBranch) (line : BodyLine) : WrittenBranch :=
  ⟨branch.header, branch.lines ++ [line]⟩

end WrittenBranch

namespace Outline

variable {α : Type} {flat : String → Expansion}

/-- The lines up to the first branch header. -/
def opening (lines : List BodyLine) : List BodyLine :=
  lines.takeWhile fun line => !line.isHeader

/-- The branches that the lines write, in order. -/
def writtenBranches : List BodyLine → List WrittenBranch
  | [] => []
  | .branch header :: rest =>
    ⟨header, opening rest⟩ :: writtenBranches rest
  | _ :: rest => writtenBranches rest

/-- The branches that have a text. -/
def filledBranches (lines : List BodyLine) : List WrittenBranch :=
  (writtenBranches lines).filter fun branch => branch.text != ""

/-! ## The main body -/

/-- The packet has a place for its branches. -/
def hasPlaceholder (lines : List BodyLine) : Bool :=
  lines.any BodyLine.isPlaceholder

/-- What the lines give one by one: by `early` up to the first line that
`stops`, and by `late` from there on. -/
def parted (stops : BodyLine → Bool) (early late : BodyLine → List α)
    (lines : List BodyLine) : List α :=
  (lines.takeWhile fun line => !stops line).flatMap early
    ++ (lines.dropWhile fun line => !stops line).flatMap late

/-- The units of the main body: those of the lines before the first
branch, with a mark for the placeholder, and of every fragment. -/
def main (flat : String → Expansion) : List BodyLine → Signature :=
  parted BodyLine.isHeader (BodyLine.mainUnits flat) fun line => (line.spliced flat).signature

/-- The fields before the branches: those of the lines before the
placeholder and the first branch, and of every fragment. -/
def before (flat : String → Expansion) : List BodyLine → List Field :=
  parted (fun line => line.isHeader || line.isPlaceholder)
    (fun line => line.own.fields ++ (line.spliced flat).fields)
    fun line => (line.spliced flat).fields

/-- The fields after the branches: those of the lines behind the
placeholder and before the first branch. -/
def after (lines : List BodyLine) : List Field :=
  parted BodyLine.isPlaceholder (fun _ => []) (fun line => line.own.fields) (opening lines)

/-! ## The packet -/

/-- The signature that a branch gives: the main body with the branch in
the place of the placeholder. -/
def signature (flat : String → Expansion) (lines : List BodyLine) (branch : WrittenBranch) :
    Signature :=
  Signature.expand (main flat lines) branch.content.signature

/-- The entry that a branch gives. -/
def entry (flat : String → Expansion) (lines : List BodyLine) (branch : WrittenBranch) :
    String × SignatureEntry :=
  ((signature flat lines branch).render,
    ⟨some branch.header.description,
      before flat lines ++ branch.content.fields ++ after lines⟩)

/-- The signatures of the packet and what they decode to: one for each
branch that has a text, or else one for the main body alone. -/
def entries (flat : String → Expansion) (lines : List BodyLine) :
    List (String × SignatureEntry) :=
  if hasPlaceholder lines then (filledBranches lines).map (entry flat lines)
  else [((main flat lines).render, ⟨none, before flat lines⟩)]

/-! ## One more line -/

section Concat

variable {lines : List BodyLine} {line : BodyLine}

theorem parted_concat (stops : BodyLine → Bool) (early late : BodyLine → List α)
    (lines : List BodyLine) (line : BodyLine) :
    parted stops early late (lines ++ [line])
      = parted stops early late lines
        ++ if lines.any stops || stops line then late line else early line := by
  induction lines with
  | nil => cases stopped : stops line <;> simp [parted, stopped]
  | cons first rest ih =>
    cases stopped : stops first with
    | true => simp [parted, stopped]
    | false =>
      have skip : ∀ more, parted stops early late (first :: more)
          = early first ++ parted stops early late more := by
        intro more
        simp [parted, stopped]
      rw [List.cons_append, skip, skip, ih, List.append_assoc]
      simp [stopped]

theorem hasPlaceholder_concat (lines : List BodyLine) (line : BodyLine) :
    hasPlaceholder (lines ++ [line]) = (hasPlaceholder lines || line.isPlaceholder) := by
  simp [hasPlaceholder]

theorem main_concat (flat : String → Expansion) (lines : List BodyLine) (line : BodyLine) :
    main flat (lines ++ [line])
      = main flat lines
        ++ if lines.any BodyLine.isHeader || line.isHeader then (line.spliced flat).signature
          else line.mainUnits flat :=
  parted_concat _ _ _ lines line

theorem before_concat (flat : String → Expansion) (lines : List BodyLine) (line : BodyLine) :
    before flat (lines ++ [line])
      = before flat lines
        ++ if (lines.any BodyLine.isHeader || hasPlaceholder lines)
              || (line.isHeader || line.isPlaceholder) then (line.spliced flat).fields
          else line.own.fields ++ (line.spliced flat).fields := by
  have stopped : lines.any (fun line => line.isHeader || line.isPlaceholder)
      = (lines.any BodyLine.isHeader || hasPlaceholder lines) := by
    rw [Bool.eq_iff_iff]
    simp only [hasPlaceholder, List.any_eq_true, Bool.or_eq_true]
    constructor
    · rintro ⟨line, mem, header | place⟩
      · exact .inl ⟨line, mem, header⟩
      · exact .inr ⟨line, mem, place⟩
    · rintro (⟨line, mem, header⟩ | ⟨line, mem, place⟩)
      · exact ⟨line, mem, .inl header⟩
      · exact ⟨line, mem, .inr place⟩
  rw [← stopped]
  exact parted_concat _ _ _ lines line

/-- One more line counts for the opening if no header stands before it,
and if it is none itself. -/
theorem opening_concat (lines : List BodyLine) (line : BodyLine) :
    opening (lines ++ [line])
      = opening lines ++ if lines.any BodyLine.isHeader || line.isHeader then [] else [line] := by
  have alike : ∀ lines, opening lines
      = parted BodyLine.isHeader (fun line => [line]) (fun _ => []) lines := by
    intro lines
    simp [opening, parted]
  rw [alike, alike, parted_concat]

theorem opening_of_no_header (h : lines.any BodyLine.isHeader = false) :
    opening lines = lines := by
  have all : ∀ other ∈ lines, (!other.isHeader) = true := by simpa using h
  simpa [opening] using @List.takeWhile_append_of_pos _ _ lines [] all

theorem own_of_isHeader (h : line.isHeader = true) : line.own = {} := by
  cases line with
  | branch header => rfl
  | field line => cases h
  | control line => cases h
  | unrecognized => rfl

theorem own_of_isPlaceholder (h : line.isPlaceholder = true) : line.own = {} := by
  cases line with
  | branch header => rfl
  | field line => cases h
  | control line =>
    cases line with
    | placeholder => rfl
    | _ => cases h
  | unrecognized => rfl

/-- One more line counts after the branches if the placeholder stands
before it and no header does. -/
theorem after_concat (lines : List BodyLine) (line : BodyLine) :
    after (lines ++ [line])
      = after lines
        ++ if !lines.any BodyLine.isHeader && hasPlaceholder lines then line.own.fields
          else [] := by
  unfold after
  rw [opening_concat]
  cases headed : lines.any BodyLine.isHeader with
  | true => simp
  | false =>
    cases header : line.isHeader with
    | true => simp [own_of_isHeader header]
    | false =>
      simp only [Bool.or_self, Bool.false_eq_true, if_false, Bool.not_false, Bool.true_and]
      rw [parted_concat, opening_of_no_header headed]
      cases place : line.isPlaceholder with
      | true => simp [own_of_isPlaceholder place]
      | false => simp [hasPlaceholder]

/-! ## One more line of a branch -/

theorem writtenBranches_eq_nil_iff :
    writtenBranches lines = [] ↔ lines.any BodyLine.isHeader = false := by
  induction lines with
  | nil => simp [writtenBranches]
  | cons first rest ih =>
    cases first with
    | branch header => simp [writtenBranches, BodyLine.isHeader]
    | field line => simpa [writtenBranches, BodyLine.isHeader] using ih
    | control line => simpa [writtenBranches, BodyLine.isHeader] using ih
    | unrecognized => simpa [writtenBranches, BodyLine.isHeader] using ih

/-- A header opens a branch, which has no lines yet. -/
theorem writtenBranches_concat_header (lines : List BodyLine) (header : BranchHeader) :
    writtenBranches (lines ++ [.branch header]) = writtenBranches lines ++ [⟨header, []⟩] := by
  induction lines with
  | nil => rfl
  | cons first rest ih =>
    cases first with
    | branch other =>
      have same : opening (rest ++ [.branch header]) = opening rest := by
        simp [opening_concat, BodyLine.isHeader]
      simp only [List.cons_append, writtenBranches, ih, same]
    | field line => exact ih
    | control line => exact ih
    | unrecognized => exact ih

theorem writtenBranches_concat_of_nil (body : line.isHeader = false)
    (h : writtenBranches lines = []) : writtenBranches (lines ++ [line]) = [] := by
  rw [writtenBranches_eq_nil_iff] at h ⊢
  simp [h, body]

/-- Any other line goes to the last branch. -/
theorem writtenBranches_concat (body : line.isHeader = false)
    {earlier : List WrittenBranch} {last : WrittenBranch}
    (h : writtenBranches lines = earlier ++ [last]) :
    writtenBranches (lines ++ [line]) = earlier ++ [last.extend line] := by
  induction lines generalizing earlier with
  | nil => simp [writtenBranches] at h
  | cons first rest ih =>
    cases first with
    | branch header =>
      cases earlier with
      | nil =>
        -- the branch is the last one, so the line is one of its own
        simp only [writtenBranches, List.nil_append, List.cons.injEq] at h
        obtain ⟨rfl, none⟩ := h
        have headless := writtenBranches_eq_nil_iff.mp none
        simp [writtenBranches, writtenBranches_concat_of_nil body none, opening_concat,
          WrittenBranch.extend, headless, body]
      | cons branch inner =>
        simp only [writtenBranches, List.cons_append, List.cons.injEq] at h
        obtain ⟨rfl, more⟩ := h
        have headed : rest.any BodyLine.isHeader = true := by
          rw [← Bool.not_eq_false, ← writtenBranches_eq_nil_iff, more]
          simp
        simp [writtenBranches, ih more, opening_concat, headed]
    | field line => exact ih h
    | control line => exact ih h
    | unrecognized => exact ih h

end Concat

end Outline

end PacketLayout
