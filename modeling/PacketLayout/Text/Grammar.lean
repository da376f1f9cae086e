/-
PacketLayout.Text.Grammar — rules for texts, and what they find.

A rule is tried at the front of a text. It fails, or it takes some of the
text and leaves the rest, and there is only one way to do so. A choice is
ordered: where its first rule takes something, the second one is not tried,
even if what follows fails. A repetition is greedy: it goes on as long as
its body takes something, and gives nothing back. And a rule can be barred,
which takes nothing, but fails where the rule would not.

Parts of what a rule takes can have names. What the rule finds is the named
parts with their texts, from the outer to the inner ones and from the left
to the right.

* `front?_many_one`, `front?_part_several`: a run of characters.
* `front?_except`: characters up to what is barred.
* `front?_firstOf_words`: a choice of words.
* `whole?_both_many_one`, `whole?_part_word`: whole texts.
-/
import Mathlib.Data.List.TakeWhile
import PacketLayout.Text.Scan

namespace PacketLayout.Text

/-- Named parts of a text, as they are found. -/
abbrev Found (Name : Type) := List (Name × List Char)

/-- A rule for the front of a text. -/
inductive Rule (Name : Type) where
  | word (text : String)
  /-- One character of a class. -/
  | one (among : Char → Bool)
  | both (first second : Rule Name)
  /-- The second rule is tried only where the first one fails. -/
  | either (first second : Rule Name)
  /-- As often as it can be. -/
  | many (body : Rule Name)
  /-- Nothing, where the rule would fail. -/
  | barred (rule : Rule Name)
  | part (name : Name) (body : Rule Name)

namespace Rule

variable {Name : Type}

/-! ## Rules made of others -/

def nothing : Rule Name :=
  word ""

def optional (rule : Rule Name) : Rule Name :=
  either rule nothing

/-- Once at least. -/
def several (rule : Rule Name) : Rule Name :=
  both rule (many rule)

def any : Rule Name :=
  one fun _ => true

/-- Any character at which the rule would fail. -/
def except (rule : Rule Name) : Rule Name :=
  both (barred rule) any

/-- One rule after the other. -/
def all : List (Rule Name) → Rule Name
  | [] => nothing
  | rule :: rest => both rule (all rest)

/-- The first rule that does not fail. -/
def firstOf : List (Rule Name) → Rule Name
  | [] => barred nothing
  | rule :: rest => either rule (firstOf rest)

/-! ## What a rule finds -/

/-- The parts of the front of a text, and the rest. -/
abbrev Front (Name : Type) := Found Name × List Char

/-- Finds as often as it can, at most so many times. -/
def greedy (find? : List Char → Option (Front Name)) : Nat → List Char → Front Name
  | 0, text => ([], text)
  | times + 1, text =>
    match find? text with
    | none => ([], text)
    | some (parts, rest) =>
      (parts ++ (greedy find? times rest).1, (greedy find? times rest).2)

/-- What a rule finds at the front of a text. A body that takes something
is not repeated more often than there are characters. -/
def front? : Rule Name → List Char → Option (Front Name)
  | word expected, text => (after? expected text).map fun rest => ([], rest)
  | one _, [] => none
  | one among, c :: rest => if among c then some ([], rest) else none
  | both first second, text =>
    (first.front? text).bind fun found =>
      (second.front? found.2).map fun more => (found.1 ++ more.1, more.2)
  | either first second, text => (first.front? text).or (second.front? text)
  | many body, text => some (greedy body.front? text.length text)
  | barred rule, text => if (rule.front? text).isSome then none else some ([], text)
  | part name body, text =>
    (body.front? text).map fun found =>
      ((name, text.take (text.length - found.2.length)) :: found.1, found.2)

/-- The parts of a text that a rule takes as a whole. -/
def whole? (rule : Rule Name) (text : List Char) : Option (Found Name) :=
  (rule.front? text).bind fun found => if found.2 = [] then some found.1 else none

/-! ## Rule by rule -/

section

variable {among : Char → Bool} {text rest : List Char} {rule other first second : Rule Name}

theorem front?_word (expected : String) (text : List Char) :
    (word expected : Rule Name).front? text = (after? expected text).map fun rest => ([], rest) :=
  rfl

@[simp] theorem front?_one_nil (among : Char → Bool) :
    (one among : Rule Name).front? [] = none :=
  rfl

theorem front?_one_cons (among : Char → Bool) (c : Char) (rest : List Char) :
    (one among : Rule Name).front? (c :: rest) = if among c then some ([], rest) else none :=
  rfl

theorem front?_both (first second : Rule Name) (text : List Char) :
    (both first second).front? text = (first.front? text).bind fun found =>
      (second.front? found.2).map fun more => (found.1 ++ more.1, more.2) :=
  rfl

theorem front?_either (first second : Rule Name) (text : List Char) :
    (either first second).front? text = (first.front? text).or (second.front? text) :=
  rfl

theorem front?_part (name : Name) (body : Rule Name) (text : List Char) :
    (part name body).front? text = (body.front? text).map fun found =>
      ((name, text.take (text.length - found.2.length)) :: found.1, found.2) :=
  rfl

theorem front?_all_cons (rule : Rule Name) (rules : List (Rule Name)) (text : List Char) :
    (all (rule :: rules)).front? text = (rule.front? text).bind fun found =>
      ((all rules).front? found.2).map fun more => (found.1 ++ more.1, more.2) :=
  rfl

@[simp] theorem front?_all_nil (text : List Char) :
    (all [] : Rule Name).front? text = some ([], text) :=
  rfl

theorem front?_firstOf_cons (rule : Rule Name) (rules : List (Rule Name)) (text : List Char) :
    (firstOf (rule :: rules)).front? text
      = (rule.front? text).or ((firstOf rules).front? text) :=
  rfl

@[simp] theorem front?_firstOf_nil (text : List Char) :
    (firstOf [] : Rule Name).front? text = none :=
  rfl

theorem front?_optional (rule : Rule Name) (text : List Char) :
    (optional rule).front? text = some ((rule.front? text).getD ([], text)) := by
  show (rule.front? text).or (some ([], text)) = _
  cases rule.front? text with
  | none => rfl
  | some found => rfl

/-- Rules that find the same can be put for one another. -/
theorem front?_several_congr (same : rule.front? = other.front?) :
    (several rule).front? = (several other).front? := by
  funext text
  show (rule.front? text).bind _ = (other.front? text).bind _
  simp only [front?, same]

theorem front?_many_congr (same : rule.front? = other.front?) :
    (many rule).front? = (many other).front? := by
  funext text
  simp only [front?, same]

theorem front?_part_congr (name : Name) (same : rule.front? = other.front?) :
    (part name rule).front? = (part name other).front? := by
  funext text
  simp only [front?_part, same]

/-! ## Runs of characters -/

theorem greedy_one (among : Char → Bool) (times : Nat) (enough : text.length ≤ times) :
    greedy (one among : Rule Name).front? times text = ([], text.dropWhile among) := by
  induction times generalizing text with
  | zero =>
    obtain rfl : text = [] := List.length_eq_zero_iff.mp (by omega)
    rfl
  | succ times ih =>
    cases text with
    | nil => rfl
    | cons c rest =>
      have shorter : rest.length ≤ times := by
        simp only [List.length_cons] at enough
        omega
      cases taken : among c with
      | true => simp [greedy, front?_one_cons, taken, ih shorter]
      | false => simp [greedy, front?_one_cons, taken]

theorem front?_many_one (among : Char → Bool) (text : List Char) :
    (many (one among) : Rule Name).front? text = some ([], text.dropWhile among) := by
  show some (greedy _ text.length text) = _
  rw [greedy_one among text.length (Nat.le_refl _)]

theorem front?_several_one (among : Char → Bool) (text : List Char) :
    (several (one among) : Rule Name).front? text
      = if text.takeWhile among = [] then none else some ([], text.dropWhile among) := by
  cases text with
  | nil => rfl
  | cons c rest =>
    rw [several, front?_both, front?_one_cons]
    cases taken : among c with
    | true => simp [front?_many_one, taken]
    | false => simp [taken]

/-- The front of a text, by the length of what follows it. -/
theorem take_of_split {front : List Char} (split : front ++ rest = text) :
    text.take (text.length - rest.length) = front := by
  subst split
  have length : (front ++ rest).length - rest.length = front.length := by
    rw [List.length_append]
    omega
  rw [length, List.take_left]

/-- A part that is a run of characters. -/
theorem front?_part_several (name : Name) (among : Char → Bool) (text : List Char) :
    (part name (several (one among))).front? text
      = if text.takeWhile among = [] then none
        else some ([(name, text.takeWhile among)], text.dropWhile among) := by
  rw [front?_part, front?_several_one]
  split
  · rfl
  · rw [Option.map_some, take_of_split List.takeWhile_append_dropWhile]

/-- What is found of a run that need not be there. -/
def ofRun (name : Name) (run : List Char) : Found Name :=
  if run = [] then [] else [(name, run)]

@[simp] theorem ofRun_nil (name : Name) : ofRun name [] = [] :=
  rfl

theorem front?_optional_several (name : Name) (among : Char → Bool) (text : List Char) :
    (optional (part name (several (one among)))).front? text
      = some (ofRun name (text.takeWhile among), text.dropWhile among) := by
  rw [front?_optional, front?_part_several, ofRun]
  by_cases empty : text.takeWhile among = []
  · have split : text.takeWhile among ++ text.dropWhile among = text :=
      List.takeWhile_append_dropWhile
    rw [empty, List.nil_append] at split
    rw [if_pos empty, if_pos empty, split]
    rfl
  · rw [if_neg empty, if_neg empty]
    rfl

/-- What may stand where a rule fails is a class of characters, if the rule
is about the next character only. -/
theorem front?_except
    (bars : ∀ c rest, (rule.front? (c :: rest)).isSome = !among c) :
    (except rule).front? = (one among).front? := by
  funext text
  rw [except, front?_both]
  cases text with
  | nil =>
    show (if (rule.front? []).isSome then none else some ([], [])).bind _ = none
    split
    · rfl
    · rfl
  | cons c rest =>
    have bar := bars c rest
    rw [front?_one_cons]
    simp only [front?]
    rw [bar]
    cases among c with
    | true => rfl
    | false => rfl

/-! ## Words -/

/-- Of words none of which starts with another, the order is the same for
all texts: at most one can be at the front. -/
theorem front?_firstOf_words {words : List String} {found : Front Name}
    (apart : words.Pairwise fun word other =>
      ¬ word.toList <+: other.toList ∧ ¬ other.toList <+: word.toList) :
    (firstOf (words.map word)).front? text = some found ↔
      found.1 = [] ∧ ∃ word ∈ words, text = word.toList ++ found.2 := by
  induction words with
  | nil => simp
  | cons first words ih =>
    obtain ⟨unlike, apart⟩ := List.pairwise_cons.mp apart
    rw [List.map_cons, front?_firstOf_cons, front?_word]
    cases start : after? first text with
    | none =>
      have other : ∀ rest, text ≠ first.toList ++ rest := by
        rintro rest rfl
        rw [after?_append] at start
        cases start
      rw [Option.map_none, Option.none_or, ih apart]
      simp [other]
    | some rest =>
      have split := after?_eq_some_iff.mp start
      rw [Option.map_some, Option.some_or, Option.some.injEq]
      constructor
      · rintro rfl
        exact ⟨rfl, first, List.mem_cons_self, split⟩
      · rintro ⟨none, other, mem, same⟩
        rcases List.mem_cons.mp mem with rfl | mem
        · obtain ⟨parts, behind⟩ := found
          obtain rfl : rest = behind := List.append_cancel_left (split.symm.trans same)
          rw [show parts = [] from none]
        · -- two words at the front of one text, so one starts with the other
          have starts : first.toList <+: text := ⟨rest, split.symm⟩
          have starts' : other.toList <+: text := ⟨found.2, same.symm⟩
          rcases List.prefix_or_prefix_of_prefix starts starts' with inside | inside
          · exact absurd inside (unlike other mem).1
          · exact absurd inside (unlike other mem).2

/-! ## Whole texts -/

theorem whole?_all_cons (rule : Rule Name) (rules : List (Rule Name)) (text : List Char) :
    (all (rule :: rules)).whole? text = (rule.front? text).bind fun found =>
      ((all rules).whole? found.2).map fun more => found.1 ++ more := by
  rw [whole?, front?_all_cons]
  cases rule.front? text with
  | none => rfl
  | some found =>
    show (((all rules).front? found.2).map _).bind _ = Option.map _ ((all rules).whole? found.2)
    rw [whole?]
    cases (all rules).front? found.2 with
    | none => rfl
    | some more =>
      by_cases ended : more.2 = []
      · simp [ended]
      · simp [ended]

/-- A part with a word in front that takes all of a text. -/
theorem whole?_part_word (name : Name) (start : String) (rules : List (Rule Name))
    (text : List Char) :
    (part name (all (word start :: rules))).whole? text = (after? start text).bind fun rest =>
      ((all rules).whole? rest).map fun found => (name, text) :: found := by
  rw [whole?, front?_part, front?_all_cons, front?_word]
  cases after? start text with
  | none => rfl
  | some rest =>
    rw [Option.map_some, Option.bind_some, Option.bind_some, whole?]
    cases (all rules).front? rest with
    | none => rfl
    | some found =>
      by_cases ended : found.2 = []
      · simp [ended]
      · simp [ended]

theorem front?_part_word_eq_none {start : String} (name : Name) (rules : List (Rule Name))
    (unfit : after? start text = none) :
    (part name (all (word start :: rules))).front? text = none := by
  rw [front?_part, front?_all_cons, front?_word, unfit]
  rfl

/-- Where a form does not fit, the others are tried. -/
theorem whole?_firstOf_of_none {rules : List (Rule Name)} (unfit : rule.front? text = none) :
    (firstOf (rule :: rules)).whole? text = (firstOf rules).whole? text := by
  rw [whole?, front?_firstOf_cons, unfit, Option.none_or]
  rfl

/-- Where no other form fits, the first one need not be ahead of them. -/
theorem whole?_firstOf_of_rest {rules : List (Rule Name)}
    (unfit : (firstOf rules).front? text = none) :
    (firstOf (rule :: rules)).whole? text = rule.whole? text := by
  rw [whole?, front?_firstOf_cons, unfit, Option.or_none]
  rfl

/-- Of a run at the end, only its characters count. -/
theorem whole?_both_many_one (rule : Rule Name) (among : Char → Bool) (text : List Char) :
    (both rule (many (one among))).whole? text
      = (rule.front? text).bind fun found => if found.2.all among then some found.1 else none := by
  rw [whole?, front?_both]
  cases rule.front? text with
  | none => rfl
  | some found =>
    have stops : found.2.dropWhile among = [] ↔ found.2.all among = true := by
      rw [List.dropWhile_eq_nil_iff, List.all_eq_true]
    rw [Option.bind_some, front?_many_one, Option.map_some, Option.bind_some, Option.bind_some]
    by_cases ended : found.2.all among = true
    · rw [if_pos ended, if_pos (stops.mpr ended), List.append_nil]
    · rw [if_neg ended, if_neg fun none => ended (stops.mp none)]

end

end Rule

end PacketLayout.Text
