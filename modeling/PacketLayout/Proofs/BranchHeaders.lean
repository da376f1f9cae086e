/-
PacketLayout.Proofs.BranchHeaders — how the headers of branches are
written, and what is read of them.

A header has a description and two places for a discriminator: behind the
first colon inside the bracket, and behind a colon that follows the
bracket. `Layout` says how a text is made of the three. Either place may be
left out or left blank. Of what is written in them the last one counts, and
nothing else is looked at.

A header with a discriminator in one place at most is read for what it is.
One with two of them loses the first, unless they are the same:
`SubCate[A:zz]:02` is read as a header for the byte 02, and that `zz` is no
byte does not matter.

* `Layout.parts?_eq`, `exists_layout`: the texts that can be taken apart.
* `Layout.unique`: a text is a header in one way only.
* `read_eq_iff`: a text is read as `Reads` says.
* `read_last`: of two discriminators the last one is read.
* `read_single`: the headers with one discriminator at most, and the lines
  of a body that start like a header.
-/
import PacketLayout.Proofs.FieldLines

namespace PacketLayout

open Text

namespace BranchHeader

variable {text description : List Char} {inner outer : Option (List Char)}

/-! ## How headers are written -/

/-- A colon with the text behind it, or neither. -/
def afterColon : Option (List Char) → List Char
  | none => []
  | some text => ':' :: text

/-- The text is a header with this description, with `inner` behind a colon
inside its bracket and `outer` behind a colon that follows it. -/
structure Layout (text description : List Char) (inner outer : Option (List Char)) : Prop where
  text_eq : text = "SubCate[".toList
    ++ (description ++ (afterColon inner ++ ']' :: afterColon outer))
  colon_free : ':' ∉ description
  bracket_free : ']' ∉ description
  inner_free : ∀ written ∈ inner, ']' ∉ written
  outer_filled : ∀ written ∈ outer, written ≠ []

/-- The discriminators that are written in the two places, from left to
right, without the white space around them. A blank place holds none. -/
def discriminators (inner outer : Option (List Char)) : List (List Char) :=
  ((inner.toList ++ outer.toList).map trim).filter (· ≠ [])

/-! ## Taking them apart -/

/-- What is inside a bracket is a description, up to the first colon if
there is one. -/
theorem exists_inner (inside : List Char) :
    ∃ description inner, inside = description ++ afterColon inner ∧ ':' ∉ description := by
  by_cases colon : ':' ∈ inside
  · obtain ⟨description, written, rfl, free⟩ := List.eq_append_cons_of_mem colon
    exact ⟨description, some written, rfl, free⟩
  · exact ⟨inside, none, (List.append_nil _).symm, colon⟩

/-- The first colon inside a bracket ends the description. -/
theorem split_inside (free : ':' ∉ description) (inner : Option (List Char)) :
    (description ++ afterColon inner).takeWhile (· != ':') = description ∧
      ((description ++ afterColon inner).dropWhile (· != ':')).drop 1 = inner.getD [] := by
  have other : ∀ c ∈ description, (c != ':') = true := by
    intro c mem
    exact bne_iff_ne.mpr fun same => free (same ▸ mem)
  rw [List.takeWhile_append_of_pos other, List.dropWhile_append_of_pos other]
  cases inner with
  | none => simp [afterColon]
  | some written => simp [afterColon]

theorem exists_outer {behind written : List Char} (h : outer? behind = some written) :
    ∃ outer, behind = afterColon outer ∧ ∀ written ∈ outer, written ≠ [] := by
  unfold outer? at h
  split at h
  · exact ⟨none, rfl, by simp⟩
  · rename_i c rest
    exact ⟨some (c :: rest), rfl, by simp⟩
  · cases h

theorem outer?_afterColon (filled : ∀ written ∈ outer, written ≠ []) :
    outer? (afterColon outer) = some (outer.getD []) := by
  cases outer with
  | none => rfl
  | some written =>
    cases written with
    | nil => exact absurd rfl (filled [] rfl)
    | cons c rest => rfl

theorem Layout.parts?_eq (h : Layout text description inner outer) :
    parts? text = some ⟨description, inner.getD [], outer.getD []⟩ := by
  have free : ']' ∉ description ++ afterColon inner := by
    have later : ']' ∉ afterColon inner := by
      cases inner with
      | none => simp [afterColon]
      | some written => simpa [afterColon] using h.inner_free written rfl
    simpa using ⟨h.bracket_free, later⟩
  obtain ⟨first, second⟩ := split_inside h.colon_free inner
  rw [parts?, h.text_eq, after?_append, ← List.append_assoc description]
  dsimp only
  rw [bracketed?_append _ free]
  dsimp only
  rw [outer?_afterColon h.outer_filled, first, second]
  rfl

theorem afterColon_inj {place other : Option (List Char)}
    (h : afterColon place = afterColon other) : place = other := by
  cases place with
  | none =>
    cases other with
    | none => rfl
    | some written => cases h
  | some written =>
    cases other with
    | none => cases h
    | some written' =>
      obtain ⟨-, rfl⟩ := List.cons.inj h
      rfl

/-- A place that is not empty is known by its text. -/
theorem eq_of_getD_eq {place other : Option (List Char)}
    (filled : ∀ written ∈ place, written ≠ []) (filled' : ∀ written ∈ other, written ≠ [])
    (same : place.getD [] = other.getD []) : place = other := by
  cases place with
  | none =>
    cases other with
    | none => rfl
    | some written => exact absurd same.symm (filled' written rfl)
  | some written =>
    cases other with
    | none => exact absurd same (filled written rfl)
    | some written' => exact congrArg some same

/-- A text is a header in one way only. -/
theorem Layout.unique {description' : List Char} {inner' outer' : Option (List Char)}
    (h : Layout text description inner outer) (h' : Layout text description' inner' outer') :
    description = description' ∧ inner = inner' ∧ outer = outer' := by
  obtain ⟨rfl, -, behind⟩ := Parts.mk.inj (Option.some.inj (h.parts?_eq.symm.trans h'.parts?_eq))
  obtain rfl := eq_of_getD_eq h.outer_filled h'.outer_filled behind
  have written := h.text_eq.symm.trans h'.text_eq
  have inside := List.append_cancel_left (List.append_cancel_left written)
  exact ⟨rfl, afterColon_inj (List.append_cancel_right inside), rfl⟩

/-- What can be taken apart is a header. -/
theorem exists_layout {parts : Parts} (h : parts? text = some parts) :
    ∃ description inner outer, Layout text description inner outer := by
  unfold parts? at h
  split at h
  · cases h
  · rename_i rest opened
    split at h
    · cases h
    · rename_i inside behind closed
      obtain ⟨written, follows, -⟩ := Option.map_eq_some_iff.mp h
      obtain ⟨rfl, free⟩ := bracketed?_eq_some_iff.mp closed
      obtain ⟨outer, rfl, filled⟩ := exists_outer follows
      obtain ⟨description, inner, rfl, colonless⟩ := exists_inner inside
      obtain ⟨before, later⟩ := not_or.mp (mt List.mem_append.mpr free)
      refine ⟨description, inner, outer, ?_, colonless, before, ?_, filled⟩
      · rw [after?_eq_some_iff.mp opened, List.append_assoc]
      · rintro written rfl mem
        exact later (List.mem_cons_of_mem _ mem)

/-! ## Reading them -/

/-- The last of the discriminators is that behind the bracket, if there is
one. -/
theorem getLast?_discriminators (inner outer : Option (List Char)) :
    (discriminators inner outer).getLast?
      = (written? (outer.getD [])).or (written? (inner.getD [])) := by
  have single : ∀ place : Option (List Char),
      (place.toList.map trim).filter (· ≠ []) = (written? (place.getD [])).toList := by
    intro place
    cases place with
    | none => rfl
    | some written =>
      by_cases blank : trim written = []
      · simp [written?, blank]
      · simp [written?, blank]
  rw [discriminators, List.map_append, List.filter_append, single, single, List.getLast?_append]
  cases written? (outer.getD []) with
  | none => cases written? (inner.getD []) <;> rfl
  | some bytes => rfl

/-- What a text is to be read as. -/
inductive Reads : List Char → Except Cause BranchHeader → Prop
  | header {text description : List Char} {inner outer : Option (List Char)}
    (layout : Layout text description inner outer)
    (filled : trim description ≠ [] ∨ discriminators inner outer ≠ [])
    (hex : ∀ bytes ∈ (discriminators inner outer).getLast?, isHexBytes bytes = true) :
    Reads text (.ok ⟨String.ofList (trim description),
      (discriminators inner outer).getLast?.map String.ofList⟩)
  | nonHex {text description : List Char} {inner outer : Option (List Char)}
    {bytes : List Char} (layout : Layout text description inner outer)
    (last : (discriminators inner outer).getLast? = some bytes)
    (nonHex : isHexBytes bytes = false) :
    Reads text (.error (.nonHexDiscriminator (String.ofList bytes)))
  | malformed {text : List Char}
    (empty : ∀ description inner outer, Layout text description inner outer →
      trim description = [] ∧ discriminators inner outer = []) :
    Reads text (.error .malformedBranch)

/-- A header without a discriminator is read by its description. -/
theorem Layout.read_eq_of_none (h : Layout text description inner outer)
    (none_written : (discriminators inner outer).getLast? = none) :
    read text = if trim description = [] then .error .malformedBranch
      else .ok ⟨String.ofList (trim description), none⟩ := by
  rw [getLast?_discriminators] at none_written
  rw [read, h.parts?_eq]
  dsimp only
  rw [none_written]

/-- Of the discriminators of a header the last one is looked at. -/
theorem Layout.read_eq_of_some {bytes : List Char} (h : Layout text description inner outer)
    (last : (discriminators inner outer).getLast? = some bytes) :
    read text = if isHexBytes bytes then
        .ok ⟨String.ofList (trim description), some (String.ofList bytes)⟩
      else .error (.nonHexDiscriminator (String.ofList bytes)) := by
  rw [getLast?_discriminators] at last
  rw [read, h.parts?_eq]
  dsimp only
  rw [last]

/-- No text is without an answer. -/
theorem reads_read (text : List Char) : Reads text (read text) := by
  cases taken : parts? text with
  | none =>
    rw [read, taken]
    refine .malformed fun description inner outer layout => ?_
    rw [layout.parts?_eq] at taken
    cases taken
  | some parts =>
    obtain ⟨description, inner, outer, layout⟩ := exists_layout taken
    cases last : (discriminators inner outer).getLast? with
    | none =>
      have none_written := List.getLast?_eq_none_iff.mp last
      rw [layout.read_eq_of_none last]
      split
      · rename_i blank
        refine .malformed fun description' inner' outer' layout' => ?_
        obtain ⟨rfl, rfl, rfl⟩ := layout.unique layout'
        exact ⟨blank, none_written⟩
      · rename_i described
        have reads := Reads.header layout (.inl described) (by simp [last])
        rwa [last] at reads
    | some bytes =>
      rw [layout.read_eq_of_some last]
      split
      · rename_i hex
        have written : discriminators inner outer ≠ [] := by
          intro empty
          simp [empty] at last
        have reads := Reads.header layout (.inr written) (by simpa [last] using hex)
        rwa [last] at reads
      · rename_i other
        exact .nonHex layout last (Bool.eq_false_iff.mpr other)

theorem Reads.eq {outcome : Except Cause BranchHeader} (h : Reads text outcome) :
    read text = outcome := by
  cases h with
  | @header description inner outer layout filled hex =>
    cases last : (discriminators inner outer).getLast? with
    | none =>
      have described := filled.resolve_right (not_not.mpr (List.getLast?_eq_none_iff.mp last))
      rw [layout.read_eq_of_none last, if_neg described]
      rfl
    | some bytes =>
      rw [layout.read_eq_of_some last, if_pos (hex bytes last)]
      rfl
  | nonHex layout last nonHex =>
    rw [layout.read_eq_of_some last, if_neg (Bool.eq_false_iff.mp nonHex)]
  | malformed empty =>
    have reads := reads_read text
    generalize read text = outcome at reads
    cases reads with
    | header layout filled hex =>
      obtain ⟨blank, none_written⟩ := empty _ _ _ layout
      exact absurd filled (not_or.mpr ⟨not_not.mpr blank, not_not.mpr none_written⟩)
    | nonHex layout last nonHex =>
      rw [(empty _ _ _ layout).2] at last
      cases last
    | malformed empty => rfl

/-- A text is read as `Reads` says. -/
theorem read_eq_iff {outcome : Except Cause BranchHeader} :
    read text = outcome ↔ Reads text outcome :=
  ⟨fun h => h ▸ reads_read text, Reads.eq⟩

/-! ## Two discriminators -/

/-- Of the discriminators of a header the last one is read, whatever stands
before it.

What is read is a header that is written as one, with the last of its
discriminators, and this one is made of bytes. So what is written in both
places is read from both just if it is the same. If the last one is not
made of bytes, the header is refused. And if there is one behind the
bracket, what stands inside the bracket behind the colon is never looked
at. -/
theorem read_last (text : List Char) :
    (∀ header, read text = .ok header →
      (∃ description inner outer, Layout text description inner outer) ∧
      ∀ description inner outer, Layout text description inner outer →
        header.description = String.ofList (trim description) ∧
        header.discriminator = (discriminators inner outer).getLast?.map String.ofList ∧
        (∀ bytes ∈ (discriminators inner outer).getLast?, isHexBytes bytes = true) ∧
        ((∀ bytes ∈ discriminators inner outer,
            isHexBytes bytes = true ∧ header.discriminator = some (String.ofList bytes)) ↔
          ∀ bytes ∈ discriminators inner outer, ∀ other ∈ discriminators inner outer,
            bytes = other)) ∧
    (∀ description inner outer, Layout text description inner outer →
      ∀ bytes ∈ (discriminators inner outer).getLast?, isHexBytes bytes = false →
        read text = .error (.nonHexDiscriminator (String.ofList bytes))) ∧
    ∀ other description inner inner' written,
      Layout text description inner (some written) →
      Layout other description inner' (some written) → trim written ≠ [] →
      read other = read text := by
  refine ⟨?_, ?_, ?_⟩
  · intro header accepted
    have reads := read_eq_iff.mp accepted
    cases reads with
    | header layout filled hex =>
      refine ⟨⟨_, _, _, layout⟩, fun description inner outer layout' => ?_⟩
      obtain ⟨rfl, rfl, rfl⟩ := layout'.unique layout
      refine ⟨rfl, rfl, hex, ?_⟩
      constructor
      · intro kept bytes mem other mem'
        have same := (kept bytes mem).2.symm.trans (kept other mem').2
        exact String.ofList_injective (Option.some.inj same)
      · intro same bytes mem
        have last : (discriminators inner outer).getLast? = some bytes := by
          have some_written := List.ne_nil_of_mem mem
          rw [List.getLast?_eq_some_getLast some_written,
            same _ (List.getLast_mem some_written) bytes mem]
        exact ⟨hex bytes last, by rw [last]; rfl⟩
  · intro description inner outer layout bytes last nonHex
    exact Reads.eq (.nonHex layout last nonHex)
  · intro other description inner inner' written layout layout' filled
    have last : ∀ inside : Option (List Char),
        (discriminators inside (some written)).getLast? = some (trim written) := by
      intro inside
      rw [getLast?_discriminators, Option.getD_some, written?, if_neg filled]
      rfl
    rw [layout.read_eq_of_some (last inner), layout'.read_eq_of_some (last inner')]

/-- A byte written in both places in the same way, one that another byte
takes the place of, one that is none, and a text behind the colon inside the
bracket that nobody looks at. -/
theorem read_last_samples :
    read "SubCate[ A : 0f ]:0f".toList = .ok ⟨"A", some "0f"⟩ ∧
    (∀ bytes ∈ discriminators (some " 0f ".toList) (some "0f".toList),
      isHexBytes bytes = true ∧ some "0f" = some (String.ofList bytes)) ∧
    read "SubCate[A:01]:0".toList = .error (.nonHexDiscriminator "0") ∧
    Layout "SubCate[A:01]:02".toList "A".toList (some "01".toList) (some "02".toList) ∧
    Layout "SubCate[A:?:]:02".toList "A".toList (some "?:".toList) (some "02".toList) ∧
    read "SubCate[A:?:]:02".toList = read "SubCate[A:01]:02".toList := by
  have found : read "SubCate[ A : 0f ]:0f".toList = .ok ⟨"A", some "0f"⟩ := by decide
  have both : Layout "SubCate[ A : 0f ]:0f".toList " A ".toList (some " 0f ".toList)
      (some "0f".toList) := ⟨by decide, by decide, by decide, by simp, by simp⟩
  have short : Layout "SubCate[A:01]:0".toList "A".toList (some "01".toList) (some "0".toList) :=
    ⟨by decide, by decide, by decide, by simp, by simp⟩
  have left : Layout "SubCate[A:01]:02".toList "A".toList (some "01".toList)
      (some "02".toList) := ⟨by decide, by decide, by decide, by simp, by simp⟩
  have right : Layout "SubCate[A:?:]:02".toList "A".toList (some "?:".toList)
      (some "02".toList) := ⟨by decide, by decide, by decide, by simp, by simp⟩
  obtain ⟨accepted, -, -⟩ := read_last "SubCate[ A : 0f ]:0f".toList
  obtain ⟨-, -, -, kept⟩ := (accepted _ found).2 _ _ _ both
  obtain ⟨-, refused, -⟩ := read_last "SubCate[A:01]:0".toList
  obtain ⟨-, -, unseen⟩ := read_last "SubCate[A:01]:02".toList
  exact ⟨found, kept.mpr (by decide), refused _ _ _ short "0".toList (by decide) (by decide),
    left, right, unseen _ _ _ _ _ left right (by decide)⟩

/-- Not every discriminator of a header that is read is one made of bytes,
or comes into what is read. -/
theorem discriminator_lost :
    read "SubCate[A:zz]:02".toList = .ok ⟨"A", some "02"⟩ ∧
    ¬ ∀ text header, read text = .ok header →
      ∀ description inner outer, Layout text description inner outer →
        ∀ bytes ∈ discriminators inner outer,
          isHexBytes bytes = true ∧ header.discriminator = some (String.ofList bytes) := by
  have found : read "SubCate[A:zz]:02".toList = .ok ⟨"A", some "02"⟩ := by decide
  refine ⟨found, fun kept => ?_⟩
  have layout : Layout "SubCate[A:zz]:02".toList "A".toList (some "zz".toList)
      (some "02".toList) := ⟨by decide, by decide, by decide, by simp, by simp⟩
  obtain ⟨hex, -⟩ := kept _ _ found _ _ _ layout "zz".toList (by decide)
  exact absurd hex (by decide)

end BranchHeader

/-! ## At a line of a source -/

namespace BodyLine

variable {σ : Type} {site : Site}

/-- A line that starts like a header is a header or is refused as one. -/
theorem readAt_branch (starts : "SubCate[".toList <+: site.raw.toList) (state : σ) :
    (readAt site : Job σ BodyLine) state =
      match BranchHeader.read site.raw.toList with
      | .ok header => ⟨.ok (.branch header), state, []⟩
      | .error cause => ⟨.error ⟨cause, site⟩, state, []⟩ := by
  have unpadded : ¬ "pad-".toList <+: site.raw.toList := by
    obtain ⟨rest, whole⟩ := starts
    rintro ⟨rest', whole'⟩
    have same := whole.trans whole'.symm
    cases same
  have no_field : FieldLine.read site.raw.toList = .ok none :=
    FieldLine.Reads.eq (.other unpadded (.inl starts))
  rw [readAt, read, no_field]
  dsimp only
  rw [if_pos (startsWith_iff.mpr starts)]
  cases BranchHeader.read site.raw.toList <;> rfl

end BodyLine

namespace BranchHeader

/-! ## One discriminator at most -/

theorem eq_toList_getLast? {written : List (List Char)} (single : written.length ≤ 1) :
    written = written.getLast?.toList := by
  match written, single with
  | [], _ => rfl
  | [bytes], _ => rfl

/-- Headers that have a discriminator in one of the two places at most.

One is read just if it is laid out like a header, with a description or a
discriminator in it, which then is made of bytes. It is refused for its
discriminator just if that is all there is against it, and as malformed
otherwise. A line of a body that starts like a header, of whatever kind, is
nothing else: no field line and no control line. The parts of a header are
what the grammar finds, which takes an optional part where it can. -/
theorem read_single :
    (∀ text : List Char,
      (∀ description inner outer, Layout text description inner outer →
        (discriminators inner outer).length ≤ 1) →
      (∀ header, read text = .ok header ↔
        ∃ description inner outer, ∃ last : Option (List Char),
          Layout text description inner outer ∧ discriminators inner outer = last.toList ∧
          (trim description ≠ [] ∨ last.isSome) ∧
          (∀ bytes ∈ last, isHexBytes bytes = true) ∧
          header = ⟨String.ofList (trim description), last.map String.ofList⟩) ∧
      (∀ bytes, read text = .error (.nonHexDiscriminator bytes) ↔
        ∃ description inner outer, ∃ last : List Char,
          Layout text description inner outer ∧ discriminators inner outer = [last] ∧
          isHexBytes last = false ∧ bytes = String.ofList last) ∧
      (read text = .error .malformedBranch ↔
        ¬ ∃ description inner outer, Layout text description inner outer ∧
          (trim description ≠ [] ∨ discriminators inner outer ≠ [])) ∧
      ∀ cause, read text = .error cause →
        cause = .malformedBranch ∨ ∃ bytes, cause = .nonHexDiscriminator bytes) ∧
    (∀ (site : Site) {σ : Type} (state : σ), "SubCate[".toList <+: site.raw.toList →
      (BodyLine.readAt site : Job σ BodyLine) state =
        match read site.raw.toList with
        | .ok header => ⟨.ok (.branch header), state, []⟩
        | .error cause => ⟨.error ⟨cause, site⟩, state, []⟩) ∧
    ∀ text : List Char,
      parts? text = (LineRule.branchHeader.whole? text).map Parts.ofFound := by
  refine ⟨fun text single => ⟨fun header => ?_, fun bytes => ?_, ?_, fun cause failed => ?_⟩,
    fun site σ state starts => BodyLine.readAt_branch starts state, parts?_eq_grammar⟩
  · rw [read_eq_iff]
    constructor
    · intro reads
      cases reads with
      | @header description inner outer layout filled hex =>
        have written := eq_toList_getLast? (single _ _ _ layout)
        refine ⟨description, inner, outer, _, layout, written, filled.imp_right ?_, hex, rfl⟩
        exact fun some_written => List.getLast?_isSome.mpr some_written
    · rintro ⟨description, inner, outer, last, layout, written, filled, hex, rfl⟩
      have same : (discriminators inner outer).getLast? = last := by
        rw [written]
        cases last <;> rfl
      subst same
      refine .header layout (filled.imp_right ?_) hex
      exact fun some_written => List.getLast?_isSome.mp some_written
  · rw [read_eq_iff]
    constructor
    · intro reads
      cases reads with
      | @nonHex description inner outer last layout found nonHex =>
        have written := eq_toList_getLast? (single _ _ _ layout)
        rw [found] at written
        exact ⟨description, inner, outer, last, layout, written, nonHex, rfl⟩
    · rintro ⟨description, inner, outer, last, layout, written, nonHex, rfl⟩
      exact .nonHex layout (by rw [written]; rfl) nonHex
  · rw [read_eq_iff]
    constructor
    · rintro (_ | _ | empty) ⟨description, inner, outer, layout, filled⟩
      obtain ⟨blank, none_written⟩ := empty _ _ _ layout
      exact absurd filled (not_or.mpr ⟨not_not.mpr blank, not_not.mpr none_written⟩)
    · intro none_filled
      refine .malformed fun description inner outer layout => ?_
      have empty := not_or.mp fun filled =>
        none_filled ⟨description, inner, outer, layout, filled⟩
      exact ⟨not_not.mp empty.1, not_not.mp empty.2⟩
  · cases read_eq_iff.mp failed with
    | nonHex layout last nonHex => exact .inr ⟨_, rfl⟩
    | malformed empty => exact .inl rfl

/-- A byte inside the bracket; one behind it that is half a byte; nothing but
blanks; and, as a line of a body, a header without its bracket. -/
theorem read_single_samples :
    (∃ description inner outer, ∃ last : Option (List Char),
      Layout "SubCate[ Hop : 0F ]".toList description inner outer ∧
        discriminators inner outer = last.toList ∧
        (⟨"Hop", some "0F"⟩ : BranchHeader)
          = ⟨String.ofList (trim description), last.map String.ofList⟩) ∧
    read "SubCate[Hop]:0".toList = .error (.nonHexDiscriminator "0") ∧
    read "SubCate[ : ]".toList = .error .malformedBranch ∧
    (BodyLine.readAt ⟨3, "SubCate[Hop:$4"⟩ : Job Nat BodyLine) 0
      = ⟨.error ⟨.malformedBranch, ⟨3, "SubCate[Hop:$4"⟩⟩, 0, []⟩ := by
  obtain ⟨texts, lines, -⟩ := read_single
  have inside : Layout "SubCate[ Hop : 0F ]".toList " Hop ".toList (some " 0F ".toList) none :=
    ⟨by decide, by decide, by decide, by simp, by simp⟩
  have behind : Layout "SubCate[Hop]:0".toList "Hop".toList none (some "0".toList) :=
    ⟨by decide, by decide, by decide, by simp, by simp⟩
  have blank : Layout "SubCate[ : ]".toList " ".toList (some " ".toList) none :=
    ⟨by decide, by decide, by decide, by simp, by simp⟩
  refine ⟨?_, ?_, ?_, lines ⟨3, "SubCate[Hop:$4"⟩ 0 (by decide)⟩
  · have single := texts "SubCate[ Hop : 0F ]".toList fun description inner outer layout => by
      obtain ⟨rfl, rfl, rfl⟩ := inside.unique layout
      decide
    obtain ⟨description, inner, outer, last, layout, written, -, -, header⟩ :=
      (single.1 ⟨"Hop", some "0F"⟩).mp (by decide)
    exact ⟨description, inner, outer, last, layout, written, header⟩
  · have single := texts "SubCate[Hop]:0".toList fun description inner outer layout => by
      obtain ⟨rfl, rfl, rfl⟩ := behind.unique layout
      decide
    exact (single.2.1 "0").mpr ⟨_, _, _, _, behind, by decide, by decide, rfl⟩
  · have single := texts "SubCate[ : ]".toList fun description inner outer layout => by
      obtain ⟨rfl, rfl, rfl⟩ := blank.unique layout
      decide
    refine single.2.2.1.mpr ?_
    rintro ⟨description, inner, outer, layout, filled⟩
    obtain ⟨rfl, rfl, rfl⟩ := blank.unique layout
    revert filled
    decide

end BranchHeader

end PacketLayout
