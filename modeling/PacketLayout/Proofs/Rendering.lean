/-
PacketLayout.Proofs.Rendering — the text of a signature.

A signature is written as the texts of its units with spaces between
them, and units without a text leave no trace, not even a space. So the
text of what is put between two fixed parts can be read off the whole:
the fixed parts and their spaces are the same every time, unless nothing
is put in.

* `render_eq_empty_iff`: only a blank signature has no text.
* `render_around_inj`: what stands between two fixed parts can be read
  off the whole, if it is not blank.
* `brace_not_mem_render`: a text has an opening brace only from a
  sub-category mark.
-/
import PacketLayout.Signature

namespace PacketLayout

open Text

namespace Token

/-- Only units that are empty have no text. -/
theorem render_eq_empty_iff {token : Token} : token.render = "" ↔ token.isEmpty = true := by
  cases token with
  | hex digits => simp [render, isEmpty]
  | padding count => cases count <;> simp [render, isEmpty, List.replicate_succ]
  | size bytes => simp [render, isEmpty]
  | composite value => cases value <;> simp [render, isEmpty, Composite.text]
  | repeatStart => simp [render, isEmpty]
  | repeatEnd => simp [render, isEmpty]
  | subCategory => simp [render, isEmpty]

/-! ## Braces -/

/-- The text of the unit has no opening brace. -/
def Plain (token : Token) : Prop :=
  '\x7b' ∉ token.render.toList

/-- A sub-category mark is written with a brace. -/
theorem Plain.ne_subCategory {token : Token} (plain : token.Plain) :
    token ≠ .subCategory := by
  rintro rfl
  exact plain (by decide)

theorem isHexDigit_brace : isHexDigit '\x7b' = false := by decide

theorem plain_hex {text : List Char} (h : isHexBytes text = true) :
    (hex (String.ofList text)).Plain := by
  intro mem
  have digits := (isHexBytes_iff.mp h).2.2
  have digit := digits '\x7b' (by simpa [render] using mem)
  rw [isHexDigit_brace] at digit
  cases digit

theorem plain_padding (count : Nat) : (padding count).Plain := by
  simp [Plain, render, String.toList_join]

theorem plain_repeatStart : repeatStart.Plain := by
  simp [Plain, render]

theorem plain_repeatEnd : repeatEnd.Plain := by
  simp [Plain, render]

theorem plain_of_mem_words {token : Token} (h : token ∈ words) : token.Plain := by
  have all : ∀ word ∈ words, '\x7b' ∉ word.render.toList := by decide +kernel
  exact all token h

/-- A unit that is written in a layout line is no mark. -/
theorem plain_of_read? {text : List Char} {token : Token} (h : read? text = some token) :
    token.Plain := by
  rcases read?_cases h with ⟨listed, -⟩ | ⟨bytes, rfl⟩
  · exact plain_of_mem_words listed
  · exact plain_hex bytes

end Token

namespace Signature

/-- The texts that a signature shows. -/
def texts (signature : Signature) : List String :=
  (signature.filter fun token => !token.isEmpty).map Token.render

theorem texts_append (first second : Signature) :
    texts (first ++ second) = texts first ++ texts second := by
  simp [texts]

/-- A signature shows nothing if no unit has a text. -/
theorem texts_eq_nil_iff {signature : Signature} :
    texts signature = [] ↔ isBlank signature = true := by
  simp [texts, isBlank]

theorem render_eq_empty_iff {signature : Signature} :
    render signature = "" ↔ isBlank signature = true := by
  rw [← texts_eq_nil_iff]
  change " ".intercalate (texts signature) = "" ↔ _
  cases shown : texts signature with
  | nil => simp
  | cons text rest =>
    have written : text ≠ "" := by
      have mem : text ∈ texts signature := by simp [shown]
      obtain ⟨token, kept, rfl⟩ := List.mem_map.mp mem
      have full : token.isEmpty = false := by simpa using (List.mem_filter.mp kept).2
      simp [Token.render_eq_empty_iff, full]
    cases rest with
    | nil => simp [written]
    | cons next more => simp [String.intercalate_cons_cons, written]

theorem render_bne_empty (signature : Signature) :
    (render signature != "") = !isBlank signature := by
  rw [Bool.eq_iff_iff, bne_iff_ne, ne_eq, render_eq_empty_iff]
  simp

/-- Two parts that are not blank have a space between them. -/
theorem render_append {first second : Signature} (hf : isBlank first = false)
    (hs : isBlank second = false) :
    render (first ++ second) = render first ++ " " ++ render second := by
  have shownFirst : texts first ≠ [] := by simp [texts_eq_nil_iff, hf]
  have shownSecond : texts second ≠ [] := by simp [texts_eq_nil_iff, hs]
  change " ".intercalate (texts (first ++ second)) = _
  rw [texts_append, String.intercalate_append_of_ne_nil shownFirst shownSecond]
  rfl

theorem render_append_of_blank_left {first : Signature} (second : Signature)
    (h : isBlank first = true) : render (first ++ second) = render second := by
  change " ".intercalate (texts (first ++ second)) = " ".intercalate (texts second)
  rw [texts_append, texts_eq_nil_iff.mpr h, List.nil_append]

theorem render_append_of_blank_right (first : Signature) {second : Signature}
    (h : isBlank second = true) : render (first ++ second) = render first := by
  change " ".intercalate (texts (first ++ second)) = " ".intercalate (texts first)
  rw [texts_append, texts_eq_nil_iff.mpr h, List.append_nil]

/-! ## Between fixed parts -/

/-- A part that is not blank always gets the same text in front. -/
theorem render_behind (before : Signature) : ∃ front : String,
    ∀ rest, isBlank rest = false → render (before ++ rest) = front ++ render rest := by
  cases blank : isBlank before with
  | true => exact ⟨"", fun rest _ => by simp [render_append_of_blank_left rest blank]⟩
  | false => exact ⟨render before ++ " ", fun rest full => render_append blank full⟩

/-- A part that is not blank always gets the same text behind. -/
theorem render_before (after : Signature) : ∃ back : String,
    ∀ part, isBlank part = false → render (part ++ after) = render part ++ back := by
  cases blank : isBlank after with
  | true => exact ⟨"", fun part _ => by simp [render_append_of_blank_right part blank]⟩
  | false =>
    refine ⟨" " ++ render after, fun part full => ?_⟩
    rw [render_append full blank, String.append_assoc]

/-- What stands between two fixed parts can be read off the whole, if it
is not blank. -/
theorem render_around_inj {before after left right : Signature}
    (hl : isBlank left = false) (hr : isBlank right = false)
    (same : render (before ++ left ++ after) = render (before ++ right ++ after)) :
    render left = render right := by
  obtain ⟨front, inFront⟩ := render_behind before
  obtain ⟨back, behind⟩ := render_before after
  have whole : ∀ part, isBlank part = false →
      render (before ++ part ++ after) = front ++ (render part ++ back) := by
    intro part full
    have longer : isBlank (part ++ after) = false := by
      simp only [isBlank, List.all_append, Bool.and_eq_false_iff] at full ⊢
      exact .inl full
    rw [List.append_assoc, inFront (part ++ after) longer, behind part full]
  rw [whole left hl, whole right hr, String.append_right_inj] at same
  exact (String.append_left_inj back).mp same

/-- One mark is replaced; the parts around it stay. -/
theorem expand_around {before after : Signature} (branch : Signature)
    (hb : Token.subCategory ∉ before) (ha : Token.subCategory ∉ after) :
    expand (before ++ [.subCategory] ++ after) branch = before ++ branch ++ after := by
  rw [expand_append, expand_append, expand_of_not_mem branch hb, expand_of_not_mem branch ha]
  simp [expand]

/-! ## Braces -/

/-- A text has an opening brace only from a sub-category mark. -/
theorem brace_not_mem_render {signature : Signature}
    (plain : ∀ token ∈ signature, token.Plain) : '\x7b' ∉ (render signature).toList := by
  induction signature with
  | nil => simp [render]
  | cons token rest ih =>
    have later := ih fun other mem => plain other (by simp [mem])
    have first := plain token (by simp)
    change '\x7b' ∉ (render ([token] ++ rest)).toList
    cases blank : isBlank [token] with
    | true => rwa [render_append_of_blank_left rest blank]
    | false =>
      have alone : render [token] = token.render := by
        have shown : token.isEmpty = false := by simpa [isBlank] using blank
        simp [render, shown]
      cases blankRest : isBlank rest with
      | true =>
        rw [render_append_of_blank_right [token] blankRest, alone]
        exact first
      | false =>
        rw [render_append blank blankRest, alone]
        simp only [String.toList_append, List.mem_append, not_or]
        exact ⟨⟨first, by decide⟩, later⟩

end Signature

end PacketLayout
