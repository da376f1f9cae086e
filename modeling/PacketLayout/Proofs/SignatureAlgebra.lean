/-
PacketLayout.Proofs.SignatureAlgebra — signatures put behind and into each
other.

The text of a signature that is put together can be told from the texts of
its parts. Behind each other, they have a space between them if both have a
text. In the place of a mark, the branch counts by its text alone, at every
mark and however the text is divided into units. Nor is anything lost: as
long as there is a mark, the text of the branch can be read off the whole.
With one mark that is so because the rest stays the same. With more, the
marks behind the first one are replaced as well, so what follows the branch
differs too; but the length of the whole tells the length of the branch.

* `render_append_eq`: the text of two signatures behind each other.
* `expand_eq_intercalate`: the branch stands between the pieces that the
  marks separate, and nothing else is changed.
* `expand_additive`: what a sum over the units is for the whole.
* `render_expand_congr`, `render_expand_inj`: the text of the whole is one
  for each text of the branch.
* `join_and_expand`: all of it.
-/
import PacketLayout.Proofs.Rendering

namespace PacketLayout

namespace Signature

variable {main branch left right : Signature}

/-! ## Behind each other -/

theorem render_append_eq (first second : Signature) :
    render (first ++ second) =
      if isBlank first then render second
      else if isBlank second then render first
      else render first ++ " " ++ render second := by
  cases hf : isBlank first with
  | true => simp [render_append_of_blank_left second hf]
  | false =>
    cases hs : isBlank second with
    | true => simp [render_append_of_blank_right first hs]
    | false => simp [render_append hf hs]

theorem isBlank_congr (same : render left = render right) : isBlank left = isBlank right := by
  rw [Bool.eq_iff_iff, ← render_eq_empty_iff, ← render_eq_empty_iff, same]

/-- The text of the whole can be told from the texts of its parts. -/
theorem render_append_congr {left' right' : Signature} (first : render left = render left')
    (second : render right = render right') :
    render (left ++ right) = render (left' ++ right') := by
  rw [render_append_eq, render_append_eq, isBlank_congr first, isBlank_congr second, first, second]

/-- A part with a text is the start of the text of the whole. -/
theorem exists_render_append (full : isBlank left = false) (rest : Signature) :
    ∃ back : String, render (left ++ rest) = render left ++ back := by
  cases blank : isBlank rest with
  | true => exact ⟨"", by simp [render_append_of_blank_right left blank]⟩
  | false => exact ⟨" " ++ render rest, by rw [render_append full blank, String.append_assoc]⟩

/-! ## In the place of marks -/

theorem expand_cons (token : Token) (main branch : Signature) :
    expand (token :: main) branch
      = (if token = .subCategory then branch else [token]) ++ expand main branch := by
  simp [expand]

/-- The branch stands between the pieces that the marks separate. -/
theorem expand_eq_intercalate (main branch : Signature) :
    expand main branch = branch.intercalate (main.splitOn .subCategory) := by
  induction main with
  | nil => rfl
  | cons token rest ih =>
    rw [expand_cons, ih, List.splitOn_cons_eq_if_modifyHead]
    cases pieces : rest.splitOn Token.subCategory with
    | nil => exact absurd pieces (List.splitOn_ne_nil _ _)
    | cons piece more =>
      by_cases mark : token = .subCategory
      · simp [mark, List.intercalate_cons_cons]
      · cases more with
        | nil => simp [mark]
        | cons next others => simp [mark, List.intercalate_cons_cons]

/-- A sum over the units is, for the whole, that of the units that are no
marks, and that of the branch as often as there are marks. -/
theorem expand_additive {measure : Signature → Nat}
    (add : ∀ first second, measure (first ++ second) = measure first + measure second)
    (main branch : Signature) :
    measure (expand main branch)
      = measure (main.filter (· ≠ .subCategory)) + main.count .subCategory * measure branch := by
  have empty : measure [] = 0 := by
    have twice := add [] []
    rw [List.append_nil] at twice
    omega
  induction main with
  | nil => simp [expand, empty]
  | cons token rest ih =>
    rw [expand_cons, add, ih]
    by_cases mark : token = .subCategory
    · simp only [mark, ↓reduceIte, List.count_cons_self, Nat.succ_mul]
      simp
      omega
    · have apart : token :: rest.filter (· ≠ .subCategory)
          = [token] ++ rest.filter (· ≠ .subCategory) := rfl
      simp only [mark, ↓reduceIte, List.count_cons_of_ne mark, ne_eq, not_false_eq_true,
        decide_true, List.filter_cons_of_pos, apart, add]
      omega

/-! ## The text of the whole -/

/-- The text of the whole can be told from that of the branch. -/
theorem render_expand_congr (main : Signature) (same : render left = render right) :
    render (expand main left) = render (expand main right) := by
  induction main with
  | nil => rfl
  | cons token rest ih =>
    rw [expand_cons, expand_cons]
    refine render_append_congr ?_ ih
    split
    · exact same
    · rfl

theorem render_filter (branch : Signature) :
    render (branch.filter fun token => !token.isEmpty) = render branch := by
  simp [render]

/-- The length of the text, with a space in front of each unit. -/
def width (signature : Signature) : Nat :=
  ((texts signature).flatMap fun text => ' ' :: text.toList).length

theorem width_append (first second : Signature) :
    width (first ++ second) = width first + width second := by
  simp [width, texts_append]

theorem width_of_blank (blank : isBlank branch = true) : width branch = 0 := by
  simp [width, texts_eq_nil_iff.mpr blank]

/-- In the text there is no space in front of the first unit. -/
theorem width_eq (full : isBlank branch = false) : width branch = (render branch).length + 1 := by
  have shown : texts branch ≠ [] := by simp [texts_eq_nil_iff, full]
  change _ = (" ".intercalate (texts branch)).length + 1
  unfold width
  generalize texts branch = words at shown ⊢
  induction words with
  | nil => exact absurd rfl shown
  | cons word rest ih =>
    rw [List.flatMap_cons, List.length_append, List.length_cons, String.length_toList]
    cases rest with
    | nil => simp
    | cons next more =>
      have space : " ".length = 1 := rfl
      rw [ih (by simp), String.intercalate_cons_cons, String.length_append, String.length_append]
      omega

theorem length_render (branch : Signature) : (render branch).length = width branch - 1 := by
  cases blank : isBlank branch with
  | true =>
    rw [render_eq_empty_iff.mpr blank, width_of_blank blank]
    rfl
  | false => rw [width_eq blank, Nat.add_sub_cancel]

/-- A unit that is shown has a text. -/
theorem width_ne_one (branch : Signature) : width branch ≠ 1 := by
  cases blank : isBlank branch with
  | true =>
    rw [width_of_blank blank]
    decide
  | false =>
    have written : (render branch).length ≠ 0 := by
      rw [ne_eq, String.length_eq_zero_iff, render_eq_empty_iff, blank]
      decide
    rw [width_eq blank]
    omega

theorem width_eq_iff :
    width left = width right ↔ (render left).length = (render right).length := by
  have := width_ne_one left
  have := width_ne_one right
  rw [length_render, length_render]
  omega

/-- The whole is as long for one branch as for the other only if these are. -/
theorem length_render_of_expand (marked : Token.subCategory ∈ main)
    (same : render (expand main left) = render (expand main right)) :
    (render left).length = (render right).length := by
  have whole : width (expand main left) = width (expand main right) :=
    width_eq_iff.mpr (by rw [same])
  rw [expand_additive width_append, expand_additive width_append] at whole
  have each := Nat.eq_of_mul_eq_mul_left (List.count_pos_iff.mpr marked)
    (Nat.add_left_cancel whole)
  exact width_eq_iff.mp each

/-- In front of the first mark, the text of the whole is the same for every
branch that has a text. -/
theorem exists_render_expand {before : Signature} (unmarked : Token.subCategory ∉ before)
    (after : Signature) : ∃ front : String, ∀ branch : Signature, isBlank branch = false →
      ∃ back : String,
        render (expand (before ++ .subCategory :: after) branch)
          = front ++ (render branch ++ back) := by
  obtain ⟨front, inFront⟩ := render_behind before
  refine ⟨front, fun branch full => ?_⟩
  obtain ⟨back, behind⟩ := exists_render_append full (expand after branch)
  have longer : isBlank (branch ++ expand after branch) = false := by
    simp only [isBlank, List.all_append, Bool.and_eq_false_iff] at full ⊢
    exact .inl full
  refine ⟨back, ?_⟩
  rw [expand_append, expand_of_not_mem branch unmarked, expand_cons, if_pos rfl,
    inFront _ longer, behind]

/-- The text of the branch can be read off that of the whole. -/
theorem render_expand_inj (marked : Token.subCategory ∈ main)
    (same : render (expand main left) = render (expand main right)) :
    render left = render right := by
  have lengths := length_render_of_expand marked same
  cases hl : isBlank left with
  | true =>
    rw [render_eq_empty_iff.mpr hl] at lengths ⊢
    exact (String.length_eq_zero_iff.mp lengths.symm).symm
  | false =>
    have hr : isBlank right = false := by
      rw [← hl, Bool.eq_iff_iff, ← render_eq_empty_iff, ← render_eq_empty_iff,
        ← String.length_eq_zero_iff, ← String.length_eq_zero_iff, lengths]
    obtain ⟨before, after, rfl, unmarked⟩ := List.eq_append_cons_of_mem marked
    obtain ⟨front, split⟩ := exists_render_expand unmarked after
    obtain ⟨back, wholeLeft⟩ := split left hl
    obtain ⟨back', wholeRight⟩ := split right hr
    rw [wholeLeft, wholeRight, String.append_right_inj, ← String.toList_inj, String.toList_append,
      String.toList_append] at same
    have starts : left.render.toList.length = right.render.toList.length := by
      rw [String.length_toList, String.length_toList, lengths]
    exact String.toList_inj.mp (List.append_inj same starts).1

/-! ## All of it -/

/-- How signatures are joined and expanded.

A signature is blank just if it has no text. Behind each other, two
signatures have a space between their texts if both have one. An expansion
goes part by part, changes nothing if there is no mark, and puts the branch
between all the pieces that the marks separate; the marks that are left are
those that the branches brought along. The text of an expansion depends on
the units of the branch that have a text and on no other; and if there is a
mark, it is the same for two branches just if these have the same text. -/
theorem join_and_expand :
    (∀ signature : Signature, isBlank signature = true ↔ render signature = "") ∧
    (∀ first second : Signature, render (first ++ second) =
      if isBlank first then render second
      else if isBlank second then render first
      else render first ++ " " ++ render second) ∧
    (∀ first second branch : Signature,
      expand (first ++ second) branch = expand first branch ++ expand second branch) ∧
    (∀ main branch : Signature, Token.subCategory ∉ main → expand main branch = main) ∧
    (∀ main branch : Signature,
      expand main branch = branch.intercalate (main.splitOn .subCategory) ∧
      (expand main branch).count .subCategory
        = main.count .subCategory * branch.count .subCategory) ∧
    (∀ main left right : Signature,
      (left.filter fun token => !token.isEmpty) = (right.filter fun token => !token.isEmpty) →
      render (expand main left) = render (expand main right)) ∧
    ∀ main left right : Signature, Token.subCategory ∈ main →
      (render (expand main left) = render (expand main right) ↔ render left = render right) := by
  refine ⟨fun signature => render_eq_empty_iff.symm, render_append_eq, expand_append,
    fun main branch unmarked => expand_of_not_mem branch unmarked,
    fun main branch => ⟨expand_eq_intercalate main branch, ?_⟩,
    fun main left right shown => render_expand_congr main ?_,
    fun main left right marked => ⟨render_expand_inj marked, render_expand_congr main⟩⟩
  · rw [expand_additive fun _ _ => List.count_append]
    have none : (main.filter (· ≠ Token.subCategory)).count .subCategory = 0 :=
      List.count_eq_zero.mpr (by simp)
    rw [none, Nat.zero_add]
  · rw [← render_filter left, shown, render_filter]

/-- A byte with padding that has no text, in front of it or behind it; another
byte; and two marks to put them in. -/
theorem join_and_expand_twoMarks :
    expand [.size 1, .repeatStart] [.hex "0F"] = [.size 1, .repeatStart] ∧
    render (expand [.size 2, .subCategory, .padding 0, .subCategory] [.hex "0F", .padding 0])
      = render (expand [.size 2, .subCategory, .padding 0, .subCategory]
        [.padding 0, .hex "0F"]) ∧
    render (expand [.size 2, .subCategory, .padding 0, .subCategory] [.hex "0F"])
      ≠ render (expand [.size 2, .subCategory, .padding 0, .subCategory] [.hex "10"]) := by
  obtain ⟨-, -, -, still, -, shown, read⟩ := join_and_expand
  refine ⟨still _ _ (by decide), shown _ _ _ (by decide), ?_⟩
  rw [ne_eq, read _ _ _ (by decide)]
  decide

end Signature

end PacketLayout
