/-
PacketLayout.Proofs.SourceEdits — edits that leave the code of a source.

The code of a line does not depend on the white space around the line, nor
on a comment behind it, nor on the `/// ` of a doc comment. Each of these
edits has a side condition where the signs could be taken for one another:
a comment must not make a third slash of a slash before it, and only one
`/// ` is taken off.

* `code?_surrounded`, `code?_commented`, `code?_documented`: the line edits.
* `code?_of_blank`, `code?_of_comment`: lines without code.
-/
import PacketLayout.SourceLine

namespace PacketLayout

open Text

variable {line text before after comment blanks : List Char}

/-- The text of a line, without the sign of a doc comment. -/
def undocumented (line : List Char) : List Char :=
  (after? "/// " (trim line)).getD (trim line)

theorem undocumented_of_plain (plain : startsWith "/// " (trim line) = false) :
    undocumented line = trim line := by
  have none : after? "/// " (trim line) = none := by simpa [startsWith] using plain
  rw [undocumented, none, Option.getD_none]

theorem code?_congr {line' : List Char} (same : trim (beforeComment (trim (undocumented line)))
    = trim (beforeComment (trim (undocumented line')))) : code? line = code? line' := by
  unfold undocumented at same
  unfold code?
  simp only [same]

/-! ## White space at the ends -/

theorem trimLeft_append (blank : before.all isBlank = true) (text : List Char) :
    trimLeft (before ++ text) = trimLeft text :=
  List.dropWhile_append_of_pos (List.all_eq_true.mp blank)

theorem trimRight_append (text : List Char) (blank : after.all isBlank = true) :
    trimRight (text ++ after) = trimRight text := by
  have back : ∀ c ∈ after.reverse, isBlank c = true := by simpa using blank
  rw [trimRight, List.reverse_append, List.dropWhile_append_of_pos back, trimRight]

theorem trimLeft_ne_nil (code : trim text ≠ []) : trimLeft text ≠ [] := by
  intro empty
  rw [trim, empty] at code
  exact code rfl

/-- A text that is not blank keeps what stands behind it. -/
theorem trimLeft_append_of_code (code : trim text ≠ []) (later : List Char) :
    trimLeft (text ++ later) = trimLeft text ++ later := by
  have left : ¬ (text.dropWhile isBlank).isEmpty = true := fun empty =>
    trimLeft_ne_nil code (List.isEmpty_iff.mp empty)
  rw [trimLeft, List.dropWhile_append, if_neg left, trimLeft]

/-- And what stands before it. -/
theorem trimRight_append_of_code (before : List Char) (code : trim text ≠ []) :
    trimRight (before ++ text) = before ++ trimRight text := by
  have right : ¬ (text.reverse.dropWhile isBlank).isEmpty = true := by
    intro empty
    refine code (trim_eq_nil_iff.mpr ?_)
    rw [← List.all_reverse, ← trimLeft_eq_nil_iff]
    exact List.isEmpty_iff.mp empty
  rw [trimRight, List.reverse_append, List.dropWhile_append, if_neg right, List.reverse_append,
    List.reverse_reverse, trimRight]

theorem getLast?_trimLeft (code : trim text ≠ []) : (trimLeft text).getLast? = text.getLast? := by
  have split : text.takeWhile isBlank ++ trimLeft text = text := List.takeWhile_append_dropWhile
  have last := congrArg List.getLast? split
  rw [List.getLast?_append] at last
  cases here : (trimLeft text).getLast? with
  | none => exact absurd (List.getLast?_eq_none_iff.mp here) (trimLeft_ne_nil code)
  | some c => rw [← last, here, Option.some_or]

theorem trim_append (text : List Char) (blank : after.all isBlank = true) :
    trim (text ++ after) = trim text := by
  by_cases code : trim text = []
  · rw [code, trim_eq_nil_iff, List.all_append, trim_eq_nil_iff.mp code, blank]
    rfl
  · rw [trim, trimLeft_append_of_code code, trimRight_append _ blank, trim]

theorem trim_surrounded (text : List Char) (blank : before.all isBlank = true)
    (blank' : after.all isBlank = true) : trim (before ++ text ++ after) = trim text := by
  rw [trim_append _ blank', trim, trimLeft_append blank, trim]

/-- Indentation and line endings do not count. -/
theorem code?_surrounded (line : List Char) (blank : before.all isBlank = true)
    (blank' : after.all isBlank = true) : code? (before ++ line ++ after) = code? line := by
  rw [code?, code?, trim_surrounded line blank blank']

/-! ## Lines without code -/

theorem code?_of_blank (blank : line.all isBlank = true) : code? line = none := by
  have empty := trim_eq_nil_iff.mpr blank
  rw [code?, empty]
  rfl

/-- A line with two slashes at its start is a comment, unless it is a doc
comment. -/
theorem code?_of_comment (starts : trim line = '/' :: '/' :: text)
    (plain : startsWith "/// " (trim line) = false) : code? line = none := by
  have text := undocumented_of_plain plain
  unfold undocumented at text
  rw [code?, text, trim_trim, starts]
  rfl

/-! ## A comment behind the code -/

theorem beforeComment_cons {c : Char} (none : ¬ (c = '/' ∧ text.head? = some '/')) :
    beforeComment (c :: text) = c :: beforeComment text := by
  rw [beforeComment]
  rintro rest rfl rfl
  exact none ⟨rfl, rfl⟩

/-- A comment begins in front of the characters that follow, or nowhere
before them. -/
theorem beforeComment_cases (c : Char) (text : List Char) :
    (∃ rest, c = '/' ∧ text = '/' :: rest) ∨ ¬ (c = '/' ∧ text.head? = some '/') := by
  cases text with
  | nil => exact .inr (by simp)
  | cons d rest =>
    by_cases slashes : c = '/' ∧ d = '/'
    · obtain ⟨rfl, rfl⟩ := slashes
      exact .inl ⟨rest, rfl, rfl⟩
    · exact .inr (by simpa using slashes)

theorem beforeComment_append (last : text.getLast? ≠ some '/') (comment : List Char) :
    beforeComment (text ++ '/' :: '/' :: comment) = beforeComment text := by
  induction text with
  | nil => rfl
  | cons c rest ih =>
    rcases beforeComment_cases c rest with ⟨later, rfl, rfl⟩ | none
    · rfl
    · rw [beforeComment_cons none, List.cons_append]
      cases rest with
      | nil =>
        have slash : c ≠ '/' := by simpa using last
        rw [beforeComment_cons (by simp [slash])]
        rfl
      | cons d rest =>
        rw [List.getLast?_cons_cons] at last
        rw [beforeComment_cons (by simpa using none), ih last]

theorem beforeComment_of_free (free : '/' ∉ text) : beforeComment text = text := by
  induction text with
  | nil => rfl
  | cons c rest ih =>
    have slash : c ≠ '/' := fun same => free (by simp [same])
    rw [beforeComment_cons (by simp [slash]), ih fun mem => free (List.mem_cons_of_mem c mem)]

theorem slash_not_mem (blank : blanks.all isBlank = true) : '/' ∉ blanks := fun mem =>
  absurd (List.all_eq_true.mp blank '/' mem) (by decide)

/-- White space behind a text goes with its comment, if it has one, and
else stays behind it. -/
theorem exists_beforeComment_append (text : List Char) (blank : blanks.all isBlank = true) :
    ∃ left, left.all isBlank = true ∧
      beforeComment (text ++ blanks) = beforeComment text ++ left := by
  have free := slash_not_mem blank
  induction text with
  | nil => exact ⟨blanks, blank, beforeComment_of_free free⟩
  | cons c rest ih =>
    rcases beforeComment_cases c rest with ⟨later, rfl, rfl⟩ | none
    · exact ⟨[], rfl, rfl⟩
    · obtain ⟨left, blank', same⟩ := ih
      refine ⟨left, blank', ?_⟩
      have none' : ¬ (c = '/' ∧ (rest ++ blanks).head? = some '/') := by
        rintro ⟨rfl, head⟩
        cases rest with
        | nil => exact free (List.mem_of_head? head)
        | cons d rest => exact none ⟨rfl, head⟩
      rw [List.cons_append, beforeComment_cons none', beforeComment_cons none, same]
      rfl

theorem trim_beforeComment_append (text : List Char) (blank : blanks.all isBlank = true) :
    trim (beforeComment (text ++ blanks)) = trim (beforeComment text) := by
  obtain ⟨left, blank, same⟩ := exists_beforeComment_append text blank
  rw [same, trim_append _ blank]

theorem exists_trimRight_comment (text comment : List Char) :
    ∃ later, trimRight (text ++ '/' :: '/' :: comment) = text ++ '/' :: '/' :: later := by
  have slashes : text ++ '/' :: '/' :: comment = (text ++ ['/', '/']) ++ comment := by simp
  rw [slashes]
  by_cases code : trim comment = []
  · have last : ∀ c ∈ (text ++ ['/', '/']).getLast?, isBlank c = false := by
      intro c mem
      obtain rfl : '/' = c := by simpa using mem
      decide
    refine ⟨[], ?_⟩
    rw [trimRight_append _ (trim_eq_nil_iff.mp code), trimRight_of_last last]
  · refine ⟨trimRight comment, ?_⟩
    rw [trimRight_append_of_code _ code]
    simp

/-- What is left of a text with a comment behind it: the text, the white
space between them, and some of the comment. -/
theorem exists_trim_comment (code : trim text ≠ []) (last : text.getLast? ≠ some '/')
    (comment : List Char) :
    ∃ blanks later, blanks.all isBlank = true ∧ (trim text ++ blanks).getLast? ≠ some '/' ∧
      trim (text ++ '/' :: '/' :: comment) = trim text ++ blanks ++ '/' :: '/' :: later := by
  obtain ⟨blanks, split, blank⟩ := @trimRight_append_blank (trimLeft text)
  obtain ⟨later, kept⟩ := exists_trimRight_comment (trimLeft text) comment
  have left : trimLeft text = trim text ++ blanks := split
  refine ⟨blanks, later, blank, ?_, ?_⟩
  · rwa [← left, getLast?_trimLeft code]
  · rw [← left, ← kept, trim, trimLeft_append_of_code code]

/-- Without its comment, a text is left as it was. -/
theorem trim_commented (code : trim text ≠ []) (last : text.getLast? ≠ some '/')
    (comment : List Char) :
    trim (beforeComment (trim (text ++ '/' :: '/' :: comment)))
      = trim (beforeComment (trim text)) := by
  obtain ⟨blanks, later, blank, last', whole⟩ := exists_trim_comment code last comment
  rw [whole, beforeComment_append last', trim_beforeComment_append _ blank]

theorem trim_undocumented (code : (code? line).isSome = true) :
    trim (undocumented line) ≠ [] := by
  intro empty
  have none : code? line = none := by
    unfold undocumented at empty
    rw [code?, empty]
    rfl
  rw [none] at code
  cases code

/-- A comment behind a line with code does not make it a doc comment. -/
theorem after?_commented (code : (code? line).isSome = true)
    (none : after? "/// " (trim line) = none) (blank : blanks.all isBlank = true)
    (last : (trim line ++ blanks).getLast? ≠ some '/') (later : List Char) :
    after? "/// " (trim line ++ blanks ++ '/' :: '/' :: later) = .none := by
  have plain : startsWith "/// " (trim line) = false := by simp [startsWith, none]
  refine Option.eq_none_iff_forall_ne_some.mpr fun rest found => ?_
  have whole := after?_eq_some_iff.mp found
  -- the three slashes are in the line, unless it has one and the comment two
  rcases text : trim line with _ | ⟨c, _ | ⟨d, more⟩⟩
  · rw [code?_of_blank (trim_eq_nil_iff.mp text)] at code
    cases code
  · rw [text] at whole last
    cases blanks with
    | nil =>
      obtain ⟨rfl, _⟩ : c = '/' ∧ _ := by simpa using whole
      exact last rfl
    | cons b more =>
      obtain ⟨_, rfl, _⟩ : c = '/' ∧ b = '/' ∧ _ := by simpa using whole
      exact slash_not_mem blank (by simp)
  · rw [text] at whole
    obtain ⟨rfl, rfl, _⟩ : c = '/' ∧ d = '/' ∧ _ := by simpa using whole
    rw [code?_of_comment text plain] at code
    cases code

/-- The text of a line with code, and that of the line with a comment
behind it. -/
theorem undocumented_commented (code : (code? line).isSome = true)
    (last : line.getLast? ≠ some '/') (comment : List Char) :
    ∃ blanks later, blanks.all isBlank = true ∧
      undocumented (line ++ '/' :: '/' :: comment)
        = undocumented line ++ blanks ++ '/' :: '/' :: later ∧
      (undocumented line ++ blanks).getLast? ≠ some '/' := by
  have left : trim line ≠ [] := by
    intro empty
    exact absurd code (by simp [code?_of_blank (trim_eq_nil_iff.mp empty)])
  obtain ⟨blanks, later, blank, last', whole⟩ := exists_trim_comment left last comment
  refine ⟨blanks, later, blank, ?_⟩
  rw [undocumented, undocumented, whole]
  cases found : after? "/// " (trim line) with
  | none =>
    rw [after?_commented code found blank last' later]
    exact ⟨rfl, last'⟩
  | some rest =>
    have text := after?_eq_some_iff.mp found
    rw [text] at last' ⊢
    have split : "/// ".toList ++ rest ++ blanks ++ '/' :: '/' :: later
        = "/// ".toList ++ (rest ++ blanks ++ '/' :: '/' :: later) := by simp
    rw [split, after?_append]
    refine ⟨rfl, fun slash => last' ?_⟩
    change (rest ++ blanks).getLast? = some '/' at slash
    rw [List.append_assoc, List.getLast?_append, slash, Option.some_or]

/-- A comment behind the code does not count. -/
theorem code?_commented (code : (code? line).isSome = true) (last : line.getLast? ≠ some '/')
    (comment : List Char) : code? (line ++ '/' :: '/' :: comment) = code? line := by
  obtain ⟨blanks, later, blank, text, last'⟩ := undocumented_commented code last comment
  have left : trim (undocumented line ++ blanks) ≠ [] := by
    rw [trim_append _ blank]
    exact trim_undocumented code
  refine code?_congr ?_
  rw [text, trim_commented left last', trim_append _ blank]

/-! ## Doc comments -/

/-- The sign of a doc comment does not count. -/
theorem code?_documented (plain : startsWith "/// " (trim line) = false) :
    code? ("/// ".toList ++ line) = code? line := by
  by_cases code : trim line = []
  · have blank := trim_eq_nil_iff.mp code
    have ends : ([' '] ++ line).all isBlank = true := by
      rw [List.all_append, blank]
      decide
    have sign : "/// ".toList ++ line = [] ++ "///".toList ++ ([' '] ++ line) := by simp
    rw [code?_of_blank blank, sign, code?_surrounded _ rfl ends]
    decide
  · have text : trim ("/// ".toList ++ line) = "/// ".toList ++ trimRight line := by
      have head : ∀ c ∈ ("/// ".toList ++ line).head?, isBlank c = false := by
        intro c mem
        obtain rfl : '/' = c := by simpa using mem
        decide
      rw [trim, trimLeft_of_head head, trimRight_append_of_code _ code]
    obtain ⟨blanks, split, blank⟩ := @trimRight_append_blank line
    have same : trim (trimRight line) = trim line := by
      conv => rhs; rw [split, trim_append _ blank]
    refine code?_congr ?_
    rw [undocumented, text, after?_append, Option.getD_some, same, undocumented_of_plain plain,
      trim_trim]

end PacketLayout
