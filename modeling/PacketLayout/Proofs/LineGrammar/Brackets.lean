/-
PacketLayout.Proofs.LineGrammar.Brackets — what rules take up to a closing
bracket.

A reader looks for the closing bracket first, and then at what is inside. A
rule goes on as far as it can, and a bracket has to follow where it stops.
`LineRule.Fills` says that both come to the same: up to a bracket the rule
takes just what a test on the inside keeps. A run of characters fills a
bracket if the bracket is not one of them, and a choice of words does if no
word starts with another.

* `bracketed?_run_iff`: a run of characters with a bracket behind it.
* `LineRule.Fills.front?`, `LineRule.Fills.whole?`: what is found of a
  bracket that is filled.
* `LineRule.fills_several`, `LineRule.fills_words`, `LineRule.fills_alias`:
  rules that fill a bracket.
-/
import PacketLayout.LineGrammar

namespace PacketLayout

open Text

variable {text inside rest : List Char}

/-! ## The first closing bracket -/

/-- A run that is closed by a bracket is all that stands in front of the
first bracket. -/
theorem bracketed?_run_iff {among : Char → Bool} (shut : among ']' = false) :
    bracketed? text = some (inside, rest) ∧ inside.all among = true ↔
      text.takeWhile among = inside ∧ text.dropWhile among = ']' :: rest := by
  constructor
  · rintro ⟨closed, all⟩
    obtain ⟨rfl, -⟩ := bracketed?_eq_some_iff.mp closed
    have every := List.all_eq_true.mp all
    constructor
    · rw [List.takeWhile_append_of_pos every]
      simp [shut]
    · rw [List.dropWhile_append_of_pos every]
      simp [shut]
  · rintro ⟨rfl, dropped⟩
    have taken : (text.takeWhile among).all among = true := List.all_takeWhile
    have split := List.takeWhile_append_dropWhile (p := among) (l := text)
    rw [dropped] at split
    refine ⟨bracketed?_eq_some_iff.mpr ⟨split.symm, ?_⟩, taken⟩
    intro inner
    have taken' := List.all_eq_true.mp taken _ inner
    rw [shut] at taken'
    cases taken'

theorem bracketed?_iff_run : bracketed? text = some (inside, rest) ↔
    text.takeWhile (· != ']') = inside ∧ text.dropWhile (· != ']') = ']' :: rest := by
  rw [← bracketed?_run_iff rfl]
  constructor
  · intro closed
    have free := (bracketed?_eq_some_iff.mp closed).2
    exact ⟨closed, List.all_eq_true.mpr (bne_of_not_mem free)⟩
  · intro both
    exact both.1

theorem bracketed?_eq (text : List Char) :
    bracketed? text = (after? "]" (text.dropWhile (· != ']'))).map fun rest =>
      (text.takeWhile (· != ']'), rest) := by
  apply Option.ext
  rintro ⟨inside, rest⟩
  simp only [bracketed?_iff_run, Option.map_eq_some_iff, after?_eq_some_iff, Prod.mk.injEq]
  constructor
  · rintro ⟨taken, dropped⟩
    exact ⟨rest, dropped, taken, rfl⟩
  · rintro ⟨_, dropped, taken, rfl⟩
    exact ⟨taken, dropped⟩

/-- What stands in front of a text without closing brackets does not change
where its bracket ends. -/
theorem bracketed?_append_of_not_mem {front : List Char} (free : ']' ∉ front) (text : List Char) :
    bracketed? (front ++ text)
      = (bracketed? text).map fun found => (front ++ found.1, found.2) := by
  rw [bracketed?, bracketed?, List.dropWhile_append_of_pos (bne_of_not_mem free),
    List.takeWhile_append_of_pos (bne_of_not_mem free)]
  cases text.dropWhile (· != ']') with
  | nil => rfl
  | cons c rest => rfl

namespace LineRule

open Rule

variable {rule : LineRule} {kept kept' : List Char → Bool}

/-! ## Filled brackets -/

/-- Up to a closing bracket the rule takes just the texts that are kept, and
it names no part of them. -/
structure Fills (rule : LineRule) (kept : List Char → Bool) : Prop where
  plain : ∀ {text found}, rule.front? text = some found → found.1 = []
  closed : ∀ {text rest}, rule.front? text = some ([], ']' :: rest) ↔
    ∃ inside, bracketed? text = some (inside, rest) ∧ kept inside = true

/-- Only what can be inside a bracket counts. -/
theorem Fills.congr (fills : Fills rule kept)
    (same : ∀ inside, ']' ∉ inside → kept inside = kept' inside) : Fills rule kept' where
  plain := fills.plain
  closed := by
    intro text rest
    rw [fills.closed]
    constructor
    · rintro ⟨inside, bracket, known⟩
      have free := (bracketed?_eq_some_iff.mp bracket).2
      exact ⟨inside, bracket, same inside free ▸ known⟩
    · rintro ⟨inside, bracket, known⟩
      have free := (bracketed?_eq_some_iff.mp bracket).2
      exact ⟨inside, bracket, same inside free ▸ known⟩

/-- The inside of a bracket is found if it is kept. -/
theorem Fills.front? (fills : Fills rule kept) (label : LinePart) (rules : List LineRule)
    (text : List Char) :
    (all (part label rule :: word "]" :: rules)).front? text
      = ((bracketed? text).filter fun found => kept found.1).bind fun found =>
          ((all rules).front? found.2).map fun more => ((label, found.1) :: more.1, more.2) := by
  rw [front?_all_cons, front?_part]
  cases closed : (bracketed? text).filter fun found => kept found.1 with
  | some found =>
    obtain ⟨inside, rest⟩ := found
    obtain ⟨bracket, known⟩ := Option.filter_eq_some_iff.mp closed
    have split := (bracketed?_eq_some_iff.mp bracket).1
    have shut : after? "]" (']' :: rest) = some rest := rfl
    rw [fills.closed.mpr ⟨inside, bracket, known⟩, Option.map_some, Option.bind_some,
      take_of_split split.symm, front?_all_cons, front?_word, shut]
    simp
  | none =>
    cases first : rule.front? text with
    | none => rfl
    | some found =>
      obtain ⟨parts, behind⟩ := found
      obtain rfl : parts = [] := fills.plain first
      rw [Option.map_some, Option.bind_some, front?_all_cons, front?_word]
      cases shut : after? "]" behind with
      | none => rfl
      | some rest =>
        rw [after?_eq_some_iff.mp shut] at first
        obtain ⟨inside, bracket, known⟩ := fills.closed.mp first
        rw [bracket, Option.filter_some, if_pos known] at closed
        cases closed

theorem front?_any (text : List Char) :
    (all [many any] : LineRule).front? text = some ([], []) := by
  simp [front?_all_cons, any, front?_many_one]

/-- What stands behind a bracket that any text may follow is not looked at. -/
theorem Fills.whole? (fills : Fills rule kept) (label : LinePart) (text : List Char) :
    (all [part label rule, word "]", many any]).whole? text
      = ((bracketed? text).filter fun found => kept found.1).map fun found =>
          [(label, found.1)] := by
  rw [Rule.whole?, fills.front?]
  cases (bracketed? text).filter fun found => kept found.1 with
  | none => rfl
  | some found => simp [front?_any]

/-! ## Runs of characters -/

theorem front?_enclosed : enclosed.front? = (one (· != ']')).front? := by
  refine front?_except fun c rest => ?_
  by_cases shut : ']' = c
  · subst shut
    rfl
  · simp [front?_word, after?, afterChars?, shut, Ne.symm shut]

/-- A character of a name inside a bracket. -/
def isNamed (c : Char) : Bool :=
  c != ']' && !isBlank c

theorem front?_named : named.front? = (one isNamed).front? := by
  refine front?_except fun c rest => ?_
  by_cases shut : ']' = c
  · subst shut
    rfl
  · cases blank : isBlank c <;>
      simp [front?_either, front?_word, front?_one_cons, after?, afterChars?, isNamed, shut,
        Ne.symm shut, blank]

theorem fills_several {among : Char → Bool} (same : rule.front? = (one among).front?)
    (shut : among ']' = false) :
    Fills (several rule) fun inside => inside.all among && !inside.isEmpty where
  plain := by
    intro text found first
    rw [front?_several_congr same, front?_several_one] at first
    split at first
    · cases first
    · cases first
      rfl
  closed := by
    intro text rest
    rw [front?_several_congr same, front?_several_one]
    constructor
    · intro first
      split at first
      · cases first
      · rename_i filled
        have dropped : text.dropWhile among = ']' :: rest := by simpa using first
        obtain ⟨bracket, all⟩ := (bracketed?_run_iff shut).mpr ⟨rfl, dropped⟩
        refine ⟨_, bracket, ?_⟩
        rw [all, Bool.true_and]
        simpa using filled
    · rintro ⟨inside, bracket, known⟩
      rw [Bool.and_eq_true] at known
      obtain ⟨rfl, dropped⟩ := (bracketed?_run_iff shut).mp ⟨bracket, known.1⟩
      rw [if_neg (by simpa using known.2), dropped]

/-- Any text fills a bracket, if it is not empty. -/
theorem fills_enclosed : Fills (several enclosed) fun inside => !inside.isEmpty := by
  refine (fills_several front?_enclosed rfl).congr fun inside free => ?_
  rw [List.all_eq_true.mpr (bne_of_not_mem free), Bool.true_and]

/-- A bracket that may be empty may enclose anything. -/
theorem fills_many_enclosed : Fills (many enclosed) fun _ => true where
  plain := by
    intro text found first
    rw [front?_many_congr front?_enclosed, front?_many_one] at first
    cases first
    rfl
  closed := by
    intro text rest
    rw [front?_many_congr front?_enclosed, front?_many_one]
    simp [bracketed?_iff_run]

/-- Inside a bracket, what is no white space is a name. -/
theorem fills_named : Fills (several named) isFragmentName := by
  refine (fills_several front?_named rfl).congr fun inside free => ?_
  have other := bne_of_not_mem free
  rw [isFragmentName, Bool.and_comm, Bool.eq_iff_iff]
  simp +contextual [isNamed, other]

/-! ## Words -/

/-- One of some words, none of which starts with another. -/
theorem fills_words {words : List String}
    (apart : words.Pairwise fun word other =>
      ¬ word.toList <+: other.toList ∧ ¬ other.toList <+: word.toList)
    (free : ∀ word ∈ words, ']' ∉ word.toList) :
    Fills (firstOf (words.map word)) fun inside => words.any (·.toList == inside) where
  plain := by
    intro text found first
    exact ((front?_firstOf_words apart).mp first).1
  closed := by
    intro text rest
    rw [front?_firstOf_words apart]
    constructor
    · rintro ⟨-, name, mem, rfl⟩
      exact ⟨name.toList, bracketed?_append rest (free name mem),
        List.any_eq_true.mpr ⟨name, mem, beq_self_eq_true _⟩⟩
    · rintro ⟨inside, bracket, known⟩
      obtain ⟨name, mem, same⟩ := List.any_eq_true.mp known
      obtain rfl := eq_of_beq same
      exact ⟨rfl, name, mem, (bracketed?_eq_some_iff.mp bracket).1⟩

/-- A sign and a name. -/
theorem fills_alias : Fills (all [word "@", several named]) Qualifier.isAlias := by
  have signed : ∀ text, (all [word "@", several named]).front? text
      = (after? "@" text).bind (several named).front? := by
    intro text
    rw [front?_all_cons, front?_word]
    cases after? "@" text with
    | none => rfl
    | some rest =>
      simp only [Option.map_some, Option.bind_some, front?_all_cons]
      cases (several named).front? rest with
      | none => rfl
      | some found => simp
  constructor
  · intro text found first
    rw [signed] at first
    obtain ⟨rest, -, named⟩ := Option.bind_eq_some_iff.mp first
    exact fills_named.plain named
  · intro text rest
    rw [signed, Option.bind_eq_some_iff]
    constructor
    · rintro ⟨behind, sign, named⟩
      obtain ⟨name, bracket, known⟩ := fills_named.closed.mp named
      obtain ⟨rfl, free⟩ := bracketed?_eq_some_iff.mp bracket
      obtain rfl := after?_eq_some_iff.mp sign
      exact ⟨'@' :: name, bracketed?_eq_some_iff.mpr ⟨rfl, by simp [free]⟩, known⟩
    · rintro ⟨inside, bracket, known⟩
      obtain ⟨rfl, free⟩ := bracketed?_eq_some_iff.mp bracket
      unfold Qualifier.isAlias at known
      split at known
      · rename_i name
        have bracket' := bracketed?_append rest fun mem => free (List.mem_cons_of_mem '@' mem)
        exact ⟨_, rfl, fills_named.closed.mpr ⟨name, bracket', known⟩⟩
      · cases known

end LineRule

end PacketLayout
