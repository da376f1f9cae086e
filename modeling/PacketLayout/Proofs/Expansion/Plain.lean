/-
PacketLayout.Proofs.Expansion.Plain — which units can come up.

The units of an expansion are those that some line has written: padding,
a unit that can be written, a mark of a repeated group. So what holds of
each of these holds of every unit of a fragment, and of every expansion
that is kept, whatever was done before.

In particular only a placeholder makes a sub-category mark. It is the one
unit that is written with a brace, and no line of a layout can write
one.

* `FieldLine.token_of_read`, `BranchHeader.hex_of_read`: what a line
  writes.
* `Grown.all`, `all_expandGiven`: what holds of all units that lines
  write holds of what is kept, and of what is found.
* `Grown.plain`, `plain_expandGiven`: neither has a mark.
-/
import PacketLayout.Proofs.Expansion.Keeping
import PacketLayout.Proofs.Packet.Outline
import PacketLayout.Proofs.Rendering

namespace PacketLayout

open Text

namespace Expansion

variable {holds : Token → Prop}

/-- All units are such that `holds`. -/
def All (holds : Token → Prop) (expansion : Expansion) : Prop :=
  ∀ token ∈ expansion.signature, holds token

theorem all_empty : All holds {} := by
  intro token mem
  cases mem

theorem all_unit {token : Token} (fields : List Field) (h : holds token) :
    All holds ⟨[token], fields⟩ := by
  intro other mem
  obtain rfl : other = token := by simpa using mem
  exact h

theorem All.append {first second : Expansion} (hf : All holds first) (hs : All holds second) :
    All holds (first.append second) := by
  intro token mem
  rcases List.mem_append.mp mem with inFirst | inSecond
  · exact hf token inFirst
  · exact hs token inSecond

/-- No unit has a brace in its text. -/
def Plain (expansion : Expansion) : Prop :=
  All Token.Plain expansion

end Expansion

/-! ## What lines give -/

namespace FieldLine

variable {text : List Char} {line : FieldLine}

/-- A field line gives padding or a unit that can be written. -/
theorem token_of_read (h : FieldLine.read text = .ok (some line)) :
    (∃ count, line.token = .padding count) ∨ ∃ unit, Token.read? unit = some line.token := by
  have inner : ∀ {found : Except Cause FieldLine}, found.map some = .ok (some line) →
      found = .ok line := by
    intro found same
    cases found with
    | error cause => cases same
    | ok other => cases same; rfl
  unfold FieldLine.read at h
  split at h
  · have padding := inner h
    unfold readPadding at padding
    dsimp only at padding
    split at padding
    · split at padding
      · cases padding
        exact .inl ⟨_, rfl⟩
      · cases padding
    · cases padding
  · split at h
    · cases h
    · split at h
      · cases h
      · have parts := inner h
        unfold readParts at parts
        split at parts
        · rename_i found
          cases parts
          exact .inr ⟨_, found⟩
        · cases parts

end FieldLine

namespace BranchHeader

variable {text : List Char} {header : BranchHeader}

/-- The discriminator of a branch is bytes. -/
theorem hex_of_read (h : BranchHeader.read text = .ok header) {bytes : String}
    (told : header.discriminator = some bytes) : isHexBytes bytes.toList = true := by
  unfold BranchHeader.read at h
  split at h
  · cases h
  · dsimp only at h
    split at h
    · split at h
      · cases h
      · cases h
        cases told
    · split at h
      · rename_i digits
        cases h
        cases told
        simpa using digits
      · cases h

theorem all_lead {holds : Token → Prop}
    (h : ∀ bytes, header.discriminator = some bytes → holds (.hex bytes)) :
    header.lead.All holds := by
  unfold BranchHeader.lead
  cases told : header.discriminator with
  | none => exact Expansion.all_empty
  | some bytes => exact Expansion.all_unit _ (h bytes told)

theorem plain_lead (h : BranchHeader.read text = .ok header) : header.lead.Plain := by
  refine all_lead fun bytes told => ?_
  have plain := Token.plain_hex (hex_of_read h told)
  rwa [String.ofList_toList] at plain

end BranchHeader

namespace BodyLine

variable {text : List Char} {line : BodyLine}

theorem read_eq_field {found : FieldLine} (h : BodyLine.read text = .ok (.field found)) :
    FieldLine.read text = .ok (some found) := by
  unfold BodyLine.read at h
  split at h
  · cases h
  · rename_i line fields
    cases h
    exact fields
  · split at h
    · cases header : BranchHeader.read text with
      | error cause => rw [header] at h; cases h
      | ok other => rw [header] at h; cases h
    · split at h
      · cases h
      · cases h

theorem read_eq_branch {header : BranchHeader} (h : BodyLine.read text = .ok (.branch header)) :
    BranchHeader.read text = .ok header := by
  unfold BodyLine.read at h
  split at h
  · cases h
  · cases h
  · split at h
    · cases found : BranchHeader.read text with
      | error cause => rw [found] at h; cases h
      | ok other => rw [found] at h; cases h; rfl
    · split at h
      · cases h
      · cases h

/-- What a line gives by itself is padding, a unit that can be written,
or a mark of a repeated group. -/
theorem all_own {holds : Token → Prop} (padding : ∀ count, holds (.padding count))
    (written : ∀ unit token, Token.read? unit = some token → holds token)
    (start : holds .repeatStart) (stop : holds .repeatEnd)
    (h : BodyLine.read text = .ok line) : line.own.All holds := by
  cases line with
  | field line =>
    refine Expansion.all_unit _ ?_
    rcases FieldLine.token_of_read (read_eq_field h) with ⟨count, same⟩ | ⟨unit, found⟩
    · rw [same]
      exact padding count
    · exact written unit _ found
  | branch header => exact Expansion.all_empty
  | unrecognized => exact Expansion.all_empty
  | control line =>
    cases line with
    | repeatStart => exact Expansion.all_unit _ start
    | repeatEnd => exact Expansion.all_unit _ stop
    | _ => exact Expansion.all_empty

/-- A line by itself gives no mark of a sub-category. -/
theorem plain_own (h : BodyLine.read text = .ok line) : line.own.Plain :=
  all_own Token.plain_padding (fun _ _ => Token.plain_of_read?) Token.plain_repeatStart
    Token.plain_repeatEnd h

theorem plain_lead {header : BranchHeader} (h : BodyLine.read text = .ok (.branch header)) :
    header.lead.Plain :=
  BranchHeader.plain_lead (read_eq_branch h)

end BodyLine

/-! ## What fragments give -/

section Fragments

variable {holds : Token → Prop} {expand : String → Site → Except Failure Expansion}
  {fragments : OrderedMap Fragment} {given known : Expansions}

namespace Expansion

theorem all_ofLine
    (own : ∀ text line, BodyLine.read text = .ok line → line.own.All holds)
    (all : ∀ name site found, expand name site = .ok found → found.All holds)
    {site : Site} {piece : Expansion} (h : ofLine expand site = .ok piece) :
    piece.All holds := by
  unfold ofLine at h
  split at h
  · cases h
  · rename_i line read
    cases h
    exact own _ _ read
  · exact all _ _ _ h
  · rename_i read
    cases h
    exact own _ _ read
  · rename_i read
    cases h
    exact own _ _ read
  · cases h

theorem all_ofLines
    (own : ∀ text line, BodyLine.read text = .ok line → line.own.All holds)
    (all : ∀ name site found, expand name site = .ok found → found.All holds)
    {lines : List Site} {whole : Expansion} (h : ofLines expand lines = .ok whole) :
    whole.All holds := by
  induction lines generalizing whole with
  | nil =>
    cases h
    exact all_empty
  | cons site rest ih =>
    obtain ⟨piece, more, first, later, rfl⟩ := ofLines_cons_eq_ok h
    exact (all_ofLine own all first).append (ih later)

end Expansion

/-- What holds of all units that lines write, and of those that are kept,
holds of those that are kept later. -/
theorem Grown.all (own : ∀ text line, BodyLine.read text = .ok line → line.own.All holds)
    (grown : Grown fragments given known)
    (all : ∀ name expansion, given.get? name = some expansion → expansion.All holds) :
    ∀ name expansion, known.get? name = some expansion → expansion.All holds := by
  induction grown with
  | refl => exact all
  | @keep known newest fragment whole before new declared idle made ih =>
    intro name expansion kept
    rw [OrderedMap.get?_insert] at kept
    split at kept
    · cases kept
      exact Expansion.all_ofLines own
        (fun name site found kept => ih name found (remembered_eq_ok_iff.mp kept).2) made
    · exact ih name expansion kept

/-- What holds of all units that lines write, and of those that are
given, holds of those that are found. -/
theorem all_expandGiven (own : ∀ text line, BodyLine.read text = .ok line → line.own.All holds)
    (all : ∀ name expansion, given.get? name = some expansion → expansion.All holds)
    (path : List String) (name : String) (site : Site) (found : Expansion)
    (h : expandGiven given fragments path name site = .ok found) : found.All holds := by
  induction path using offPath_induction fragments.keys generalizing name site found with
  | step path ih =>
    rw [expandGiven_eq] at h
    cases declared : fragments.get? name with
    | none =>
      rw [declared] at h
      cases h
    | some fragment =>
      simp only [declared] at h
      cases kept : given.get? name with
      | some expansion =>
        simp only [kept, Except.ok.injEq] at h
        exact h ▸ all name expansion kept
      | none =>
        simp only [kept] at h
        split at h
        · cases h
        · rename_i fresh
          have off : name ∉ path := fun mem => fresh (.inl mem)
          exact Expansion.all_ofLines own
            (ih name (OrderedMap.mem_keys_of_get? declared) off) h

/-- If no expansion that is kept has a mark, none has one that is kept
later. -/
theorem Grown.plain (grown : Grown fragments given known)
    (plain : ∀ name expansion, given.get? name = some expansion → expansion.Plain) :
    ∀ name expansion, known.get? name = some expansion → expansion.Plain :=
  grown.all (fun _ _ => BodyLine.plain_own) plain

/-- If no expansion that is given has a mark, none has one that is
found. -/
theorem plain_expandGiven
    (plain : ∀ name expansion, given.get? name = some expansion → expansion.Plain)
    (path : List String) (name : String) (site : Site) (found : Expansion)
    (h : expandGiven given fragments path name site = .ok found) : found.Plain :=
  all_expandGiven (fun _ _ => BodyLine.plain_own) plain path name site found h

end Fragments

end PacketLayout
