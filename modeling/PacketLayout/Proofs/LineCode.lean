/-
PacketLayout.Proofs.LineCode — the code of a line, and what can be written
around it.

The code of a line is a piece of the line that is code itself: it stands
alone, without white space at its ends and without a comment, and its own
code is all of it. A comment behind a line leaves the code, if a blank is
between them that keeps its slashes from those of the line, and so does the
`/// ` of a doc comment, if the line has none yet.

On a blank line the comment stands alone, and one that goes on with a slash
and a blank is the sign of a doc comment. What follows it is then the code
of the line.

* `code?_sound`: what the code of a line is.
* `code?_eq_none_iff`: the lines without code.
* `code?_spaced_comment`: a comment behind a blank.
* `codeLines_rewritten`: a source with comments, or in doc comments.
* `code?_projects`: all of it.
-/
import Mathlib.Data.List.Forall2
import PacketLayout.Proofs.SourceEdits

namespace PacketLayout

open Text

variable {line text code blanks comment : List Char}

/-! ## Pieces of a line -/

theorem infix_trim (text : List Char) : trim text <:+: text := by
  obtain ⟨blanks, split, -⟩ := @trimRight_append_blank (trimLeft text)
  have front : trim text <+: trimLeft text := ⟨blanks, split.symm⟩
  exact front.isInfix.trans (List.dropWhile_suffix isBlank).isInfix

theorem infix_undocumented (line : List Char) : undocumented line <:+: line := by
  refine List.IsInfix.trans ?_ (infix_trim line)
  cases found : after? "/// " (trim line) with
  | none =>
    have same : undocumented line = trim line := by rw [undocumented, found, Option.getD_none]
    exact same ▸ List.infix_rfl
  | some rest =>
    rw [undocumented, found, Option.getD_some]
    exact ⟨"/// ".toList, [], by rw [after?_eq_some_iff.mp found, List.append_nil]⟩

theorem prefix_beforeComment (text : List Char) : beforeComment text <+: text := by
  induction text with
  | nil => exact List.prefix_rfl
  | cons c rest ih =>
    rcases beforeComment_cases c rest with ⟨later, rfl, rfl⟩ | none
    · exact List.nil_prefix
    · rw [beforeComment_cons none]
      exact List.cons_prefix_cons.mpr ⟨rfl, ih⟩

/-- There is no comment in front of the first one. -/
theorem not_slashes_infix_beforeComment (text : List Char) :
    ¬ "//".toList <:+: beforeComment text := by
  induction text with
  | nil => decide
  | cons c rest ih =>
    rcases beforeComment_cases c rest with ⟨later, rfl, rfl⟩ | none
    · change ¬ "//".toList <:+: []
      decide
    · rw [beforeComment_cons none, List.infix_cons_iff, not_or]
      refine ⟨fun front => none ?_, ih⟩
      obtain ⟨rfl, second⟩ := List.cons_prefix_cons.mp front
      obtain ⟨more, same⟩ := second.trans (prefix_beforeComment rest)
      exact ⟨rfl, by rw [← same]; rfl⟩

theorem beforeComment_of_uncommented (none : ¬ "//".toList <:+: text) :
    beforeComment text = text := by
  induction text with
  | nil => rfl
  | cons c rest ih =>
    rw [List.infix_cons_iff, not_or] at none
    rcases beforeComment_cases c rest with ⟨later, rfl, rfl⟩ | other
    · exact absurd ⟨later, rfl⟩ none.1
    · rw [beforeComment_cons other, ih none.2]

/-! ## What the code of a line is -/

theorem code?_eq (line : List Char) : code? line =
    if trim (beforeComment (trim (undocumented line))) = [] then none
    else some (trim (beforeComment (trim (undocumented line)))) :=
  rfl

theorem code?_eq_some_iff : code? line = some code ↔
    code ≠ [] ∧ code = trim (beforeComment (trim (undocumented line))) := by
  rw [code?_eq]
  generalize trim (beforeComment (trim (undocumented line))) = found
  by_cases empty : found = []
  · simp only [empty, if_true, reduceCtorEq, false_iff, not_and]
    exact fun filled same => filled same
  · simp only [empty, if_false, Option.some.injEq]
    constructor
    · rintro rfl
      exact ⟨empty, rfl⟩
    · rintro ⟨-, same⟩
      exact same.symm

/-- A text without white space at its ends and without a comment is code as
it stands. -/
theorem code?_of_plain (filled : code ≠ []) (trimmed : trim code = code)
    (uncommented : ¬ "//".toList <:+: code) : code? code = some code := by
  have undocumented_eq : undocumented code = code := by
    refine (undocumented_of_plain ?_).trans trimmed
    rw [trimmed, Bool.eq_false_iff, ne_eq, startsWith_iff]
    rintro ⟨rest, rfl⟩
    exact uncommented ⟨[], "/ ".toList ++ rest, rfl⟩
  refine code?_eq_some_iff.mpr ⟨filled, ?_⟩
  rw [undocumented_eq, trimmed, beforeComment_of_uncommented uncommented, trimmed]

/-- The code of a line is a piece of it that is code as it stands. -/
theorem code?_sound (found : code? line = some code) :
    code <:+: line ∧ code ≠ [] ∧ trim code = code ∧ ¬ "//".toList <:+: code ∧
      code? code = some code := by
  obtain ⟨filled, rfl⟩ := code?_eq_some_iff.mp found
  have uncommented : ¬ "//".toList <:+: trim (beforeComment (trim (undocumented line))) :=
    fun inner => not_slashes_infix_beforeComment _ (inner.trans (infix_trim _))
  have piece : trim (beforeComment (trim (undocumented line))) <:+: line := by
    refine (infix_trim _).trans ?_
    refine (prefix_beforeComment _).isInfix.trans ?_
    exact (infix_trim _).trans (infix_undocumented line)
  exact ⟨piece, filled, trim_trim _, uncommented,
    code?_of_plain filled (trim_trim _) uncommented⟩

/-! ## Lines without code -/

theorem trim_undocumented_ne_nil (code : trim line ≠ []) : trim (undocumented line) ≠ [] := by
  intro empty
  cases found : after? "/// " (trim line) with
  | none =>
    rw [undocumented, found, Option.getD_none, trim_trim] at empty
    exact code empty
  | some rest =>
    rw [undocumented, found, Option.getD_some] at empty
    -- the line would end with a blank, be it the one of the sign
    have ends : trim (trim line) = trim "///".toList := by
      rw [after?_eq_some_iff.mp found, show "/// ".toList ++ rest = "///".toList ++ (' ' :: rest)
        from rfl, trim_append]
      rw [List.all_cons, trim_eq_nil_iff.mp empty]
      rfl
    rw [trim_trim, show trim "///".toList = "///".toList by decide] at ends
    rw [ends, show after? "/// " "///".toList = none by decide] at found
    cases found

theorem trim_beforeComment_eq_nil_iff :
    trim (beforeComment (trim text)) = [] ↔ trim text = [] ∨ "//".toList <+: trim text := by
  have head := @head_trim text
  cases written : trim text with
  | nil => exact ⟨fun _ => .inl rfl, fun _ => rfl⟩
  | cons c rest =>
    rcases beforeComment_cases c rest with ⟨later, rfl, rfl⟩ | none
    · exact ⟨fun _ => .inr ⟨later, rfl⟩, fun _ => rfl⟩
    · have dark : isBlank c = false := head c (by simp [written])
      rw [beforeComment_cons none, trim_eq_nil_iff]
      constructor
      · intro blank
        rw [List.all_cons, dark] at blank
        cases blank
      · rintro (empty | ⟨more, same⟩)
        · cases empty
        · obtain ⟨rfl, rfl⟩ := List.cons.inj same
          exact absurd ⟨rfl, rfl⟩ none

/-- A line has no code if it is blank, or if there is nothing in front of its
comment. -/
theorem code?_eq_none_iff :
    code? line = none ↔ trim line = [] ∨ "//".toList <+: trim (undocumented line) := by
  have found : code? line = none ↔ trim (beforeComment (trim (undocumented line))) = [] := by
    rw [code?_eq]
    split
    · simp [*]
    · simp [*]
  rw [found, trim_beforeComment_eq_nil_iff]
  refine or_congr_left ⟨fun empty => ?_, fun empty => ?_⟩
  · by_contra code
    exact trim_undocumented_ne_nil code empty
  · rw [undocumented, empty]
    rfl

/-! ## A comment behind a blank -/

/-- A comment goes on to the end of its line. -/
theorem slashes_prefix_append (starts : "//".toList <+: trim text) (more : List Char) :
    "//".toList <+: trim (text ++ more) := by
  obtain ⟨rest, written⟩ := starts
  have code : trim text ≠ [] := by
    rw [← written]
    exact List.cons_ne_nil _ _
  obtain ⟨blanks, split, -⟩ := @trimRight_append_blank (trimLeft text)
  have left : trimLeft text = "//".toList ++ rest ++ blanks := by
    rw [written]
    exact split
  obtain ⟨later, kept⟩ := exists_trimRight_comment [] (rest ++ blanks ++ more)
  refine ⟨later, ?_⟩
  rw [trim, trimLeft_append_of_code code, left]
  simpa using kept.symm

theorem trimLeft_slashes (later : List Char) :
    trimLeft ('/' :: '/' :: later) = '/' :: '/' :: later := by
  have dark : isBlank '/' = false := by decide
  simp [trimLeft, dark]

theorem slashes_prefix_of_blank (blank : blanks.all isBlank = true) (later : List Char) :
    "//".toList <+: trim (blanks ++ '/' :: '/' :: later) := by
  obtain ⟨more, kept⟩ := exists_trimRight_comment [] later
  refine ⟨more, ?_⟩
  rw [trim, trimLeft_append blank, trimLeft_slashes]
  exact kept.symm

/-- A line that starts with slashes, and gets the sign of a doc comment from
what is put behind it, has its comment right behind the sign. -/
theorem slashes_prefix_of_sign {later rest : List Char} (starts : "//".toList <+: text)
    (other : after? "/// " text = none) (blank : blanks.all isBlank = true)
    (last : (text ++ blanks).getLast? ≠ some '/')
    (sign : text ++ (blanks ++ '/' :: '/' :: later) = "/// ".toList ++ rest) :
    "//".toList <+: trim rest := by
  obtain ⟨tail, rfl⟩ := starts
  -- the third slash is in the line, and the blank of the sign behind it
  rcases tail with _ | ⟨c, _ | ⟨d, more⟩⟩
  · cases blanks with
    | nil => exact absurd rfl last
    | cons b others =>
      obtain ⟨rfl, -⟩ : b = '/' ∧ _ := by simpa using sign
      exact absurd (by simp) (slash_not_mem blank)
  · obtain ⟨rfl, behind⟩ : c = '/' ∧ blanks ++ '/' :: '/' :: later = ' ' :: rest := by
      simpa using sign
    cases blanks with
    | nil => cases behind
    | cons b others =>
      obtain ⟨-, rfl⟩ := List.cons.inj behind
      rw [List.all_cons, Bool.and_eq_true] at blank
      exact slashes_prefix_of_blank blank.2 later
  · obtain ⟨rfl, rfl, -⟩ : c = '/' ∧ d = ' ' ∧ _ := by simpa using sign
    rw [show "//".toList ++ '/' :: ' ' :: more = "/// ".toList ++ more from rfl,
      after?_append] at other
    cases other

/-- A comment behind a line without code gives it none. -/
theorem code?_commented_of_none (code : trim line ≠ []) (none : code? line = none)
    (last : line.getLast? ≠ some '/') (comment : List Char) :
    code? (line ++ '/' :: '/' :: comment) = .none := by
  obtain ⟨blanks, later, blank, last', whole⟩ := exists_trim_comment code last comment
  have starts := (code?_eq_none_iff.mp none).resolve_left code
  refine code?_eq_none_iff.mpr (.inr ?_)
  rw [undocumented] at starts ⊢
  rw [whole, List.append_assoc]
  cases found : after? "/// " (trim line) with
  | some rest =>
    rw [found, Option.getD_some] at starts
    rw [after?_eq_some_iff.mp found, List.append_assoc, after?_append, Option.getD_some]
    exact slashes_prefix_append starts _
  | none =>
    rw [found, Option.getD_none] at starts
    cases sign : after? "/// " (trim line ++ (blanks ++ '/' :: '/' :: later)) with
    | none =>
      rw [Option.getD_none]
      exact slashes_prefix_append starts _
    | some rest =>
      rw [Option.getD_some]
      rw [trim_trim] at starts
      exact slashes_prefix_of_sign starts found blank last' (after?_eq_some_iff.mp sign)

/-- A blank line stays blank under a comment that is no sign of a doc
comment. -/
theorem code?_lone_comment (blank : trim line = []) (other : ¬ "/ ".toList <+: comment) :
    code? (line ++ ' ' :: '/' :: '/' :: comment) = none := by
  have front : (line ++ [' ']).all isBlank = true := by
    rw [List.all_append, trim_eq_nil_iff.mp blank]
    decide
  have split : line ++ ' ' :: '/' :: '/' :: comment
      = (line ++ [' ']) ++ ('/' :: '/' :: comment) ++ [] := by simp
  rw [split, code?_surrounded _ front rfl]
  have starts : "//".toList <+: trim ('/' :: '/' :: comment) :=
    @slashes_prefix_of_blank [] rfl comment
  refine code?_eq_none_iff.mpr (.inr ?_)
  rw [undocumented_of_plain, trim_trim]
  · exact starts
  · rw [Bool.eq_false_iff, ne_eq, startsWith_iff]
    intro sign
    obtain ⟨blanks, whole, -⟩ := @trimRight_append_blank ('/' :: '/' :: comment)
    rw [trim, trimLeft_slashes] at sign
    have longer : "/// ".toList <+: '/' :: '/' :: comment :=
      sign.trans ⟨blanks, whole.symm⟩
    exact other (List.cons_prefix_cons.mp (List.cons_prefix_cons.mp longer).2).2

/-- A comment behind a blank does not count, unless it makes a doc comment
of a blank line. -/
theorem code?_spaced_comment (apart : trim line ≠ [] ∨ ¬ "/ ".toList <+: comment) :
    code? (line ++ ' ' :: '/' :: '/' :: comment) = code? line := by
  by_cases blank : trim line = []
  · rw [code?_lone_comment blank (apart.resolve_left (not_not.mpr blank)),
      code?_of_blank (trim_eq_nil_iff.mp blank)]
  · have spaced : code? (line ++ [' ']) = code? line :=
      @code?_surrounded [] [' '] line rfl rfl
    have split : line ++ ' ' :: '/' :: '/' :: comment
        = (line ++ [' ']) ++ '/' :: '/' :: comment := by simp
    have last : (line ++ [' ']).getLast? ≠ some '/' := by simp
    rw [split, ← spaced]
    cases code : code? (line ++ [' ']) with
    | none =>
      have filled : trim (line ++ [' ']) ≠ [] := by rwa [trim_append _ rfl]
      exact code?_commented_of_none filled code last comment
    | some found => rw [code?_commented (by rw [code]; rfl) last, code]

/-- A blank line with three slashes and a blank behind it is a doc comment. -/
theorem code?_blank_documented (blank : trim line = []) (rest : List Char) :
    code? (line ++ ' ' :: '/' :: '/' :: ("/ ".toList ++ rest)) = code? ("/// ".toList ++ rest) := by
  have front : (line ++ [' ']).all isBlank = true := by
    rw [List.all_append, trim_eq_nil_iff.mp blank]
    decide
  have split : line ++ ' ' :: '/' :: '/' :: ("/ ".toList ++ rest)
      = (line ++ [' ']) ++ ("/// ".toList ++ rest) ++ [] := by simp
  rw [split, code?_surrounded _ front rfl]

/-! ## Sources -/

/-- A line as it is, with a comment behind it, or in a doc comment. -/
inductive Rewritten (line : List Char) : List Char → Prop
  | same : Rewritten line line
  | commented {comment : List Char} (apart : trim line ≠ [] ∨ ¬ "/ ".toList <+: comment) :
    Rewritten line (line ++ ' ' :: '/' :: '/' :: comment)
  | documented (plain : ¬ "/// ".toList <+: trim line) : Rewritten line ("/// ".toList ++ line)

theorem Rewritten.code?_eq {line' : List Char} (h : Rewritten line line') :
    code? line' = code? line := by
  cases h with
  | same => rfl
  | commented apart => exact code?_spaced_comment apart
  | documented plain =>
    refine code?_documented ?_
    rwa [Bool.eq_false_iff, ne_eq, startsWith_iff]

/-- The source that has these lines. -/
def sourceOf (lines : List (List Char)) : String :=
  String.ofList (lines.flatMap fun line => line ++ ['\n'])

theorem linesFrom_append (free : '\n' ∉ line) (current rest : List Char) :
    linesFrom current (line ++ '\n' :: rest) = (current.reverse ++ line) :: linesFrom [] rest := by
  induction line generalizing current with
  | nil => rw [List.nil_append, linesFrom_newline, List.append_nil]
  | cons c more ih =>
    obtain ⟨other, later⟩ := List.ne_and_not_mem_of_not_mem_cons free
    rw [List.cons_append, linesFrom_other other.symm, ih later]
    simp

theorem linesFrom_sourceOf {lines : List (List Char)} (free : ∀ line ∈ lines, '\n' ∉ line) :
    linesFrom [] (sourceOf lines).toList = lines := by
  rw [sourceOf, String.toList_ofList]
  induction lines with
  | nil => simp [linesFrom]
  | cons line rest ih =>
    have later := ih fun other mem => free other (by simp [mem])
    rw [List.flatMap_cons, List.append_assoc, List.singleton_append,
      linesFrom_append (free line (by simp)), later]
    rfl

/-- The lines of code of a source are told by the code of its lines. -/
theorem codeLines_congr {source source' : String}
    (same : (linesFrom [] source.toList).map code? = (linesFrom [] source'.toList).map code?) :
    codeLines source = codeLines source' := by
  have numbered : ∀ source : String, codeLines source
      = (((linesFrom [] source.toList).map code?).zipIdx 1).filterMap fun (code, number) =>
        code.map fun code => ⟨number, String.ofList code⟩ := by
    intro source
    rw [List.zipIdx_map, List.filterMap_map]
    rfl
  rw [numbered, numbered, same]

theorem map_code?_rewritten {lines lines' : List (List Char)}
    (rewritten : List.Forall₂ Rewritten lines lines') : lines'.map code? = lines.map code? := by
  induction rewritten with
  | nil => rfl
  | cons one _ ih => rw [List.map_cons, List.map_cons, one.code?_eq, ih]

/-- Comments, and the signs of doc comments, change no line of code, nor its
number. -/
theorem codeLines_rewritten {source : String} {lines : List (List Char)}
    (rewritten : List.Forall₂ Rewritten (linesFrom [] source.toList) lines)
    (free : ∀ line ∈ lines, '\n' ∉ line) : codeLines (sourceOf lines) = codeLines source := by
  refine codeLines_congr ?_
  rw [linesFrom_sourceOf free]
  exact map_code?_rewritten rewritten

/-! ## All of it -/

/-- What is found in a line as its code is a piece of the line, which is not
empty, has no white space at its ends and no comment, and is its own code.

A comment with a blank in front of it can be put behind a line without
changing the code, unless the line is blank and the comment goes on like a
doc comment: that is what it is then. The sign of a doc comment can be put
in front of a line that does not start with one. So a source keeps its lines
of code, each with its number, whichever of its lines get comments or become
doc comments. -/
theorem code?_projects :
    (∀ line code : List Char, code? line = some code →
      code <:+: line ∧ code ≠ [] ∧ trim code = code ∧ ¬ "//".toList <:+: code ∧
        code? code = some code) ∧
    (∀ line comment : List Char, trim line ≠ [] ∨ ¬ "/ ".toList <+: comment →
      code? (line ++ ' ' :: '/' :: '/' :: comment) = code? line) ∧
    (∀ line rest : List Char, trim line = [] →
      code? (line ++ ' ' :: '/' :: '/' :: ("/ ".toList ++ rest))
        = code? ("/// ".toList ++ rest)) ∧
    (∀ line : List Char, ¬ "/// ".toList <+: trim line →
      code? ("/// ".toList ++ line) = code? line) ∧
    ∀ (source : String) (lines : List (List Char)),
      List.Forall₂ Rewritten (linesFrom [] source.toList) lines →
      (∀ line ∈ lines, '\n' ∉ line) → codeLines (sourceOf lines) = codeLines source :=
  ⟨fun _ _ found => code?_sound found, fun _ _ apart => code?_spaced_comment apart,
    fun _ rest blank => code?_blank_documented blank rest,
    fun _ plain => (Rewritten.documented plain).code?_eq,
    fun _ _ rewritten free => codeLines_rewritten rewritten free⟩

/-- A field line in a doc comment and with a comment of its own; a comment
that goes on like the sign of a doc comment, behind code and on a blank
line; a comment in a doc comment; and a source that gets both. -/
theorem code?_projects_samples :
    ("X:$1".toList <:+: "  /// X:$1 // the x".toList ∧
      code? "X:$1".toList = some "X:$1".toList) ∧
    code? ("pack".toList ++ ' ' :: '/' :: '/' :: "/ end".toList) = code? "pack".toList ∧
    code? ("\t".toList ++ ' ' :: '/' :: '/' :: ("/ ".toList ++ "pack".toList))
      = code? ("/// ".toList ++ "pack".toList) ∧
    code? ("/// ".toList ++ "// end".toList) = code? "// end".toList ∧
    codeLines (sourceOf ["/// X:$1".toList, "pack // end".toList]) = codeLines "X:$1\npack" := by
  obtain ⟨sound, commented, blank, documented, sources⟩ := code?_projects
  obtain ⟨piece, -, -, -, own⟩ := sound "  /// X:$1 // the x".toList "X:$1".toList (by decide)
  refine ⟨⟨piece, own⟩, commented _ _ (.inl (by decide)), blank _ _ (by decide),
    documented _ (by decide), sources _ _ ?_ (by decide)⟩
  exact .cons (.documented (by decide)) (.cons (.commented (.inl (by decide))) .nil)

/-- On an empty line, what is put behind two slashes is code if it starts with
a third one and a blank. -/
theorem comment_documents :
    code? ("".toList ++ ' ' :: '/' :: '/' :: "/ x".toList) ≠ code? "".toList := by
  decide

end PacketLayout
