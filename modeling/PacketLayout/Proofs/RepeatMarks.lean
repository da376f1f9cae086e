/-
PacketLayout.Proofs.RepeatMarks — how repeated groups open and close.

The marks of repeated groups balance if none is closed that is not open,
and all are closed in the end. `depth?` counts the open groups along a
list of marks; it goes part by part, and so shows what becomes of a
signature that is put together from parts.

The marks of a key are read off its words. A unit whose literal bytes are
hexadecimal is one word or none, and a word is a mark only if the unit
is, so these are the marks of the signature that the key was rendered
from.

* `RepeatMark.balanced_iff`: marks balance if no group is open behind
  them.
* `RepeatMark.depth?_append`, `RepeatMark.depth?_add`: marks behind each
  other, and marks inside open groups.
* `Signature.keyMarks_render`: the marks of a rendered signature.
-/
import PacketLayout.Proofs.Rendering
import PacketLayout.Text.Scan

namespace PacketLayout

open Text

/-- Where a repeated group starts and where it stops. -/
inductive RepeatMark where
  | start
  | stop
  deriving DecidableEq

namespace RepeatMark

/-- As many groups are closed as opened, and never more on the way. -/
def Balanced (marks : List RepeatMark) : Prop :=
  (∀ front, front <+: marks → front.count .stop ≤ front.count .start) ∧
    marks.count .stop = marks.count .start

/-- How many groups are open behind the marks, with `depth` open before
them; `none` if one is closed that is not open. -/
def depth? : Nat → List RepeatMark → Option Nat
  | depth, [] => some depth
  | depth, .start :: rest => depth? (depth + 1) rest
  | 0, .stop :: _ => none
  | depth + 1, .stop :: rest => depth? depth rest

theorem depth?_append (depth : Nat) (first second : List RepeatMark) :
    depth? depth (first ++ second)
      = (depth? depth first).bind fun behind => depth? behind second := by
  induction first generalizing depth with
  | nil => rfl
  | cons mark rest ih =>
    cases mark with
    | start => exact ih (depth + 1)
    | stop =>
      cases depth with
      | zero => rfl
      | succ outer => exact ih outer

/-- More groups that are open around the marks stay open. -/
theorem depth?_add {depth behind : Nat} {marks : List RepeatMark}
    (h : depth? depth marks = some behind) (around : Nat) :
    depth? (depth + around) marks = some (behind + around) := by
  induction marks generalizing depth with
  | nil =>
    cases h
    rfl
  | cons mark rest ih =>
    cases mark with
    | start =>
      have later := @ih (depth + 1) h
      rwa [Nat.add_right_comm] at later
    | stop =>
      cases depth with
      | zero => cases h
      | succ outer =>
        rw [Nat.add_right_comm]
        exact @ih outer h

/-- What the count along the marks says of the numbers of marks. -/
theorem depth?_eq_some_iff {depth behind : Nat} {marks : List RepeatMark} :
    depth? depth marks = some behind ↔
      (∀ front, front <+: marks → front.count .stop ≤ depth + front.count .start) ∧
        behind + marks.count .stop = depth + marks.count .start := by
  induction marks generalizing depth with
  | nil =>
    simp only [depth?, Option.some.injEq, List.prefix_nil, forall_eq, List.count_nil]
    omega
  | cons mark rest ih =>
    have fronts {holds : List RepeatMark → Prop} :
        (∀ front, front <+: mark :: rest → holds front) ↔
          holds [] ∧ ∀ front, front <+: rest → holds (mark :: front) := by
      constructor
      · intro all
        exact ⟨all [] (List.nil_prefix), fun front shorter =>
          all _ (List.cons_prefix_cons.mpr ⟨rfl, shorter⟩)⟩
      · rintro ⟨none, some⟩ front shorter
        rcases List.prefix_cons_iff.mp shorter with rfl | ⟨inner, rfl, inside⟩
        · exact none
        · exact some inner inside
    rw [fronts]
    cases mark with
    | start =>
      simp only [depth?, ih, List.count_nil, List.count_cons_self,
        List.count_cons_of_ne (show RepeatMark.start ≠ .stop by decide)]
      constructor
      · rintro ⟨on, last⟩
        exact ⟨⟨by omega, fun front shorter => by have := on front shorter; omega⟩, by omega⟩
      · rintro ⟨⟨_, on⟩, last⟩
        exact ⟨fun front shorter => by have := on front shorter; omega, by omega⟩
    | stop =>
      cases depth with
      | zero =>
        simp only [depth?, List.count_cons_self, reduceCtorEq, false_iff, not_and]
        rintro ⟨_, on⟩
        have first := on [] List.nil_prefix
        simp at first
      | succ outer =>
        simp only [depth?, ih, List.count_nil, List.count_cons_self,
          List.count_cons_of_ne (show RepeatMark.stop ≠ .start by decide)]
        constructor
        · rintro ⟨on, last⟩
          exact ⟨⟨by omega, fun front shorter => by have := on front shorter; omega⟩, by omega⟩
        · rintro ⟨⟨_, on⟩, last⟩
          exact ⟨fun front shorter => by have := on front shorter; omega, by omega⟩

/-- Marks balance if no group is open behind them. -/
theorem balanced_iff {marks : List RepeatMark} :
    Balanced marks ↔ depth? 0 marks = some 0 := by
  simp [Balanced, depth?_eq_some_iff]

instance (marks : List RepeatMark) : Decidable (Balanced marks) :=
  decidable_of_iff (depth? 0 marks = some 0) balanced_iff.symm

/-- Marks that balance leave as many groups open as were open before. -/
theorem Balanced.depth?_eq {marks : List RepeatMark} (balanced : Balanced marks)
    (depth : Nat) : depth? depth marks = some depth := by
  have around := depth?_add (balanced_iff.mp balanced) depth
  rwa [Nat.zero_add] at around

end RepeatMark

/-! ## Units -/

namespace Token

/-- The mark that a unit is. -/
def repeatMark? : Token → Option RepeatMark
  | .repeatStart => some .start
  | .repeatEnd => some .stop
  | _ => none

/-- Literal bytes of the unit are in hexadecimal, and a size is one that
can be written. -/
def Legible : Token → Prop
  | .hex digits => isHexBytes digits.toList = true
  | .size bytes => .size bytes ∈ words
  | _ => True

theorem legible_of_read? {text : List Char} {token : Token} (h : read? text = some token) :
    token.Legible := by
  rcases read?_cases h with ⟨listed, -⟩ | ⟨bytes, rfl⟩
  · cases token with
    | hex digits => simp [words] at listed
    | size bytes => exact listed
    | _ => trivial
  · simpa [Legible] using bytes

/-- No unit has a space in its text. -/
theorem Legible.space_not_mem {token : Token} (legible : token.Legible) :
    ' ' ∉ token.render.toList := by
  cases token with
  | hex digits =>
    intro mem
    have digit := (isHexBytes_iff.mp legible).2.2 ' ' mem
    exact absurd digit (by decide)
  | padding count => simp [render, String.toList_join]
  | size bytes =>
    have all : ∀ word ∈ words, ' ' ∉ word.render.toList := by decide +kernel
    exact all _ legible
  | composite value => cases value <;> decide +kernel
  | repeatStart => decide +kernel
  | repeatEnd => decide +kernel
  | subCategory => decide +kernel

end Token

/-- The marks of a signature, in order. -/
def Signature.repeatMarks (signature : Signature) : List RepeatMark :=
  signature.filterMap Token.repeatMark?

/-! ## Keys -/

/-- The words of a key: what stands between its spaces. -/
def keyWords (key : String) : List (List Char) :=
  (pieces ' ' key.toList).1 :: (pieces ' ' key.toList).2

/-- The mark that a word is. -/
def wordMark? (word : List Char) : Option RepeatMark :=
  if word = Token.repeatStart.render.toList then some .start
  else if word = Token.repeatEnd.render.toList then some .stop
  else none

/-- The marks of a key, in order. -/
def keyMarks (key : String) : List RepeatMark :=
  (keyWords key).filterMap wordMark?

/-- The word of a unit is a mark if the unit is one. -/
theorem wordMark?_render {token : Token} (legible : token.Legible) :
    wordMark? token.render.toList = token.repeatMark? := by
  have bracket : ∀ {word : List Char}, '[' ∉ word → wordMark? word = none := by
    intro word free
    unfold wordMark?
    split
    · rename_i same
      exact absurd (by rw [same]; decide) free
    · split
      · rename_i same
        exact absurd (by rw [same]; decide) free
      · rfl
  cases token with
  | hex digits =>
    refine bracket fun mem => ?_
    have digit := (isHexBytes_iff.mp legible).2.2 '[' mem
    exact absurd digit (by decide)
  | padding count => exact bracket (by simp [Token.render, String.toList_join])
  | size bytes =>
    have all : ∀ word ∈ Token.words, '[' ∉ word.render.toList := by decide +kernel
    exact bracket (all _ legible)
  | composite value => cases value <;> decide +kernel
  | repeatStart => decide +kernel
  | repeatEnd => decide +kernel
  | subCategory => decide +kernel

/-- The words of texts that are written with spaces between them. -/
theorem keyWords_intercalate {words : List String} (written : words ≠ [])
    (free : ∀ word ∈ words, ' ' ∉ word.toList) :
    keyWords (" ".intercalate words) = words.map String.toList := by
  induction words with
  | nil => exact absurd rfl written
  | cons word rest ih =>
    have alone := free word (by simp)
    cases rest with
    | nil => simp [keyWords, pieces_of_not_mem alone]
    | cons next more =>
      have later := ih (by simp) fun other mem => free other (by simp [mem])
      unfold keyWords at later ⊢
      have split : (" ".intercalate (word :: next :: more)).toList
          = word.toList ++ ' ' :: (" ".intercalate (next :: more)).toList := by
        simp [String.intercalate_cons_cons]
      rw [split, pieces_append alone, List.map_cons, ← later]

/-- The marks of a rendered signature are its own. -/
theorem Signature.keyMarks_render {signature : Signature}
    (legible : ∀ token ∈ signature, token.Legible) :
    keyMarks signature.render = signature.repeatMarks := by
  have shown : (signature.texts.map String.toList).filterMap wordMark?
      = signature.repeatMarks := by
    unfold Signature.texts Signature.repeatMarks
    induction signature with
    | nil => rfl
    | cons token rest ih =>
      have first := wordMark?_render (legible token (by simp))
      have later := ih fun other mem => legible other (by simp [mem])
      cases empty : token.isEmpty with
      | true =>
        have unmarked : token.repeatMark? = none := by
          cases token <;> simp [Token.isEmpty] at empty <;> rfl
        simpa [empty, List.filterMap_cons, unmarked] using later
      | false =>
        simp only [empty, Bool.not_false, List.filter_cons_of_pos, List.map_cons,
          List.filterMap_cons, first, later]
  rw [← shown]
  unfold keyMarks
  change (keyWords (" ".intercalate signature.texts)).filterMap wordMark? = _
  by_cases written : signature.texts = []
  · rw [written]
    decide +kernel
  · rw [keyWords_intercalate written]
    intro word mem
    obtain ⟨token, kept, rfl⟩ := List.mem_map.mp mem
    exact (legible token (List.mem_filter.mp kept).1).space_not_mem

end PacketLayout
