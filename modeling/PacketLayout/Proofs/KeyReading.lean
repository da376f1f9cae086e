/-
PacketLayout.Proofs.KeyReading — from a key back to its units.

Keys are compared, looked up and matched as flat text, so it matters what
two signatures with the same key have in common. A unit that has a text is
one word of the key. No word holds a space, and no word is the text of two
different units, save that padding is written like literal zero bytes. So
a key tells the units that it was written from, up to that and up to the
units without a text.

* `Token.ofWord?_render`: a word reads as its unit, in normal form.
* `Signature.decode?_render`: a key decodes to the normal form of its
  signature.
* `Signature.render_eq_iff`: equal keys are equal normal forms.
-/
import Mathlib.Data.List.Forall2
import PacketLayout.Proofs.RepeatMarks
import PacketLayout.Proofs.Units

namespace PacketLayout

open Text

/-! ## Words -/

namespace Token

/-- The unit as a reader of the key sees it: padding is literal zero
bytes. -/
def normal : Token → Token
  | .padding count => .hex (String.ofList (List.replicate (2 * count) '0'))
  | token => token

/-- The unit that a word of a key stands for. -/
def ofWord? (word : List Char) : Option Token :=
  match wordMark? word with
  | some .start => some .repeatStart
  | some .stop => some .repeatEnd
  | none => read? word

theorem toList_render_padding (count : Nat) :
    (padding count).render.toList = List.replicate (2 * count) '0' := by
  simp only [render, String.toList_join]
  induction count with
  | zero => rfl
  | succ count ih =>
    rw [List.replicate_succ, List.flatMap_cons, ih, Nat.mul_succ]
    rfl

/-- The normal form of a unit has the text of the unit. -/
theorem render_normal (token : Token) : token.normal.render = token.render := by
  cases token with
  | padding count =>
    rw [← String.toList_inj, toList_render_padding]
    simp [normal, render]
  | _ => rfl

theorem isHexBytes_padding {count : Nat} (some : count ≠ 0) :
    isHexBytes (List.replicate (2 * count) '0') = true := by
  refine isHexBytes_iff.mpr ⟨?_, by simp, fun c mem => ?_⟩
  · intro none
    have length : 2 * count = 0 := by
      simpa only [List.length_replicate, List.length_nil] using congrArg List.length none
    omega
  · rw [List.eq_of_mem_replicate mem]
    decide

/-- The word of a unit reads as the unit in normal form. -/
theorem ofWord?_render {token : Token} (legible : token.Legible)
    (plain : token ≠ .subCategory) (shown : token.isEmpty = false) :
    ofWord? token.render.toList = some token.normal := by
  unfold ofWord?
  rw [wordMark?_render legible]
  cases token with
  | hex digits =>
    change read? digits.toList = _
    rw [read?_hexBytes legible, String.ofList_toList]
    rfl
  | padding count =>
    have filled : count ≠ 0 := by simpa [isEmpty] using shown
    change read? (padding count).render.toList = _
    rw [toList_render_padding, read?_hexBytes (isHexBytes_padding filled)]
    rfl
  | size bytes => exact read?_render_of_mem_words legible
  | composite value => cases value <;> decide +kernel
  | repeatStart => rfl
  | repeatEnd => rfl
  | subCategory => exact absurd rfl plain

/-- A word that stands for a unit is a mark of a repeated group, or a text
that a layout line may write for a unit. -/
theorem known_of_ofWord? {word : List Char} {token : Token} (h : ofWord? word = some token) :
    word = "[REPS]".toList ∨ word = "[REPE]".toList ∨ read? word = some token := by
  unfold ofWord? wordMark? at h
  by_cases start : word = repeatStart.render.toList
  · exact .inl start
  · by_cases stop : word = repeatEnd.render.toList
    · exact .inr (.inl stop)
    · rw [if_neg start, if_neg stop] at h
      exact .inr (.inr h)

end Token

/-! ## Keys -/

/-- The words that a key is made of. The empty key has none. -/
def unitWords (key : String) : List (List Char) :=
  if key = "" then [] else keyWords key

/-- Words that are written with spaces between them can be read off the
key. -/
theorem unitWords_intercalate {words : List String}
    (each : ∀ word ∈ words, word ≠ "" ∧ ' ' ∉ word.toList) :
    unitWords (" ".intercalate words) = words.map String.toList := by
  unfold unitWords
  cases words with
  | nil => rfl
  | cons word rest =>
    have filled : " ".intercalate (word :: rest) ≠ "" := by
      cases rest with
      | nil => simpa using (each word (by simp)).1
      | cons next more => simp [String.intercalate_cons_cons]
    rw [if_neg filled]
    exact keyWords_intercalate (by simp) fun other mem => (each other mem).2

namespace Signature

variable {signature first second : Signature}

/-- The units that have a text. -/
def shown (signature : Signature) : Signature :=
  signature.filter fun token => !token.isEmpty

/-- The signature as a reader of its key sees it. -/
def normalForm (signature : Signature) : Signature :=
  signature.shown.map Token.normal

/-- The signature that a key stands for. -/
def decode? (key : String) : Option Signature :=
  (unitWords key).mapM Token.ofWord?

/-- All units can be read off their texts. -/
def Readable (signature : Signature) : Prop :=
  ∀ token ∈ signature, token.Legible ∧ token ≠ .subCategory

/-- The word is the text of the unit, and reads as the unit. -/
structure WritesAs (word : List Char) (token : Token) : Prop where
  filled : word ≠ []
  text : word = token.render.toList
  known : word = "[REPS]".toList ∨ word = "[REPE]".toList ∨ ∃ unit, Token.read? word = some unit
  reads : Token.ofWord? word = some token.normal

theorem writesAs_render {token : Token} (legible : token.Legible)
    (plain : token ≠ .subCategory) (shown : token.isEmpty = false) :
    WritesAs token.render.toList token where
  filled empty := by
    have none : token.render = "" := String.toList_eq_nil_iff.mp empty
    rw [Token.render_eq_empty_iff, shown] at none
    cases none
  text := rfl
  known := (Token.known_of_ofWord? (Token.ofWord?_render legible plain shown)).imp_right
    (Or.imp_right fun read => ⟨_, read⟩)
  reads := Token.ofWord?_render legible plain shown

/-- A text that a legible signature shows can be a word of a key. -/
theorem texts_words (legible : ∀ token ∈ signature, token.Legible) :
    ∀ word ∈ signature.texts, word ≠ "" ∧ ' ' ∉ word.toList := by
  intro word mem
  obtain ⟨token, kept, rfl⟩ := List.mem_map.mp mem
  obtain ⟨inside, shown⟩ := List.mem_filter.mp kept
  refine ⟨fun empty => ?_, (legible token inside).space_not_mem⟩
  rw [Token.render_eq_empty_iff.mp empty] at shown
  cases shown

/-- The words of a key are the texts of its units. -/
theorem unitWords_render (legible : ∀ token ∈ signature, token.Legible) :
    unitWords signature.render = signature.texts.map String.toList :=
  unitWords_intercalate (texts_words legible)

/-- There is one word for each unit that has a text. -/
theorem forall₂_writesAs (readable : Readable signature) :
    List.Forall₂ WritesAs (unitWords signature.render) signature.shown := by
  rw [unitWords_render fun token mem => (readable token mem).1, texts, List.map_map,
    List.forall₂_map_left_iff]
  refine List.forall₂_same.mpr fun token mem => ?_
  obtain ⟨inside, shown⟩ := List.mem_filter.mp mem
  obtain ⟨legible, plain⟩ := readable token inside
  exact writesAs_render legible plain (by simpa using shown)

/-- A key decodes to the normal form of its signature. -/
theorem decode?_render (readable : Readable signature) :
    decode? signature.render = some signature.normalForm := by
  have words := forall₂_writesAs readable
  unfold decode? normalForm
  generalize unitWords signature.render = written at words
  generalize signature.shown = units at words
  induction words with
  | nil => rfl
  | cons writes _ ih =>
    rw [List.mapM_cons, writes.reads, ih]
    rfl

theorem render_normalForm (signature : Signature) :
    " ".intercalate (signature.normalForm.map Token.render) = signature.render := by
  rw [normalForm, List.map_map]
  exact congrArg (" ".intercalate ·) (List.map_congr_left fun token _ => token.render_normal)

/-- Two signatures have the same key exactly when they have the same
normal form. -/
theorem render_eq_iff (one : Readable first) (two : Readable second) :
    first.render = second.render ↔ first.normalForm = second.normalForm := by
  constructor
  · intro same
    have decoded := decode?_render one
    rw [same, decode?_render two] at decoded
    exact (Option.some.inj decoded).symm
  · intro same
    rw [← render_normalForm first, same, render_normalForm second]

example : decode? "64$4 64 0000 [REPS] $2 [REPE]"
    = some [.composite .int64Pair, .hex "64", .hex "0000", .repeatStart, .size 2, .repeatEnd] := by
  decide +kernel

end Signature

end PacketLayout
