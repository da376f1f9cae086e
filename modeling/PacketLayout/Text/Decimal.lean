/-
PacketLayout.Text.Decimal — numbers written in decimal.

A number is written as ASCII digits, the most significant first. What a
line asks for is counted in words of 64 bits: digits are taken one by one,
and a number that no word holds is not read, rather than cut off.

* `pushDigit?_eq_some_iff`: a digit is put behind a word exactly if the
  number this gives is a word again.
* `decimalWord?_eq_some_iff`: digits are read exactly if the number that
  they write is a word.
-/
import PacketLayout.Text.Scan

namespace PacketLayout.Text

def digitValue (digit : Char) : Nat :=
  digit.toNat - '0'.toNat

/-- The number that decimal digits write. -/
def decimalValue (digits : List Char) : Nat :=
  digits.foldl (fun value digit => 10 * value + digitValue digit) 0

/-! ## Words -/

/-- The sum of two words, if it is a word. -/
def addWord? (left right : UInt64) : Option UInt64 :=
  if left.toNat + right.toNat < UInt64.size then some (left + right) else none

/-- The product of two words, if it is a word. -/
def mulWord? (left right : UInt64) : Option UInt64 :=
  if left.toNat * right.toNat < UInt64.size then some (left * right) else none

/-- The word with one more decimal digit behind it. -/
def pushDigit? (word : UInt64) (digit : Char) : Option UInt64 :=
  (mulWord? 10 word).bind fun tens => addWord? tens (digitValue digit).toUInt64

/-- The number that decimal digits write, if it is a word. -/
def decimalWord? (digits : List Char) : Option UInt64 :=
  digits.foldlM pushDigit? 0

/-- The word a text writes in decimal: one or more ASCII digits, after an
optional plus sign, and nothing else. -/
def decimal? (text : List Char) : Option UInt64 :=
  let digits := (after? "+" text).getD text
  if digits ≠ [] ∧ digits.all Char.isDigit then decimalWord? digits else none

/-! ## What is read -/

variable {left right result word : UInt64} {digits : List Char} {digit : Char}

/-- A word that is the exact result where this is a word stands for it. -/
theorem checked_eq_some_iff {exact : Nat} (kept : exact < UInt64.size → word.toNat = exact) :
    (if exact < UInt64.size then some word else none) = some result ↔
      exact = result.toNat := by
  by_cases fits : exact < UInt64.size
  · rw [if_pos fits, Option.some.injEq, ← UInt64.toNat_inj, kept fits]
  · rw [if_neg fits]
    constructor
    · intro found
      cases found
    · intro same
      exact absurd (same ▸ result.toNat_lt_size) fits

theorem addWord?_eq_some_iff :
    addWord? left right = some result ↔ left.toNat + right.toNat = result.toNat :=
  checked_eq_some_iff fun fits => by rw [UInt64.toNat_add, Nat.mod_eq_of_lt fits]

theorem mulWord?_eq_some_iff :
    mulWord? left right = some result ↔ left.toNat * right.toNat = result.toNat :=
  checked_eq_some_iff fun fits => by rw [UInt64.toNat_mul, Nat.mod_eq_of_lt fits]

/-- The value of a character is far below the largest word. -/
theorem toNat_digitValue : (digitValue digit).toUInt64.toNat = digitValue digit := by
  have small : digit.toNat < UInt64.size :=
    Nat.lt_of_lt_of_le digit.val.toNat_lt (by decide)
  have below : digitValue digit < UInt64.size := Nat.lt_of_le_of_lt (Nat.sub_le _ _) small
  exact Nat.mod_eq_of_lt below

/-- A digit is put behind a word exactly if the number this gives is a word
again. -/
theorem pushDigit?_eq_some_iff :
    pushDigit? word digit = some result ↔
      10 * word.toNat + digitValue digit = result.toNat := by
  unfold pushDigit?
  rw [Option.bind_eq_some_iff]
  constructor
  · rintro ⟨tens, times, plus⟩
    rw [mulWord?_eq_some_iff] at times
    rw [addWord?_eq_some_iff, toNat_digitValue, ← times] at plus
    exact plus
  · intro same
    have fits : 10 * word.toNat < UInt64.size := by
      have below := result.toNat_lt_size
      omega
    refine ⟨10 * word, ?_, ?_⟩
    · rw [mulWord?_eq_some_iff, UInt64.toNat_mul]
      exact (Nat.mod_eq_of_lt fits).symm
    · rw [addWord?_eq_some_iff, UInt64.toNat_mul, toNat_digitValue]
      exact (congrArg (· + digitValue digit) (Nat.mod_eq_of_lt fits)).trans same

/-- More digits make no number smaller. -/
theorem le_foldl_digits (value : Nat) :
    value ≤ digits.foldl (fun value digit => 10 * value + digitValue digit) value := by
  induction digits generalizing value with
  | nil => exact Nat.le_refl value
  | cons digit rest ih =>
    exact Nat.le_trans (by omega) (ih (10 * value + digitValue digit))

/-- Digits behind a word: an intermediate number that is no word makes the
whole one too large as well. -/
theorem foldlM_pushDigit?_eq_some_iff :
    digits.foldlM pushDigit? word = some result ↔
      digits.foldl (fun value digit => 10 * value + digitValue digit) word.toNat
        = result.toNat := by
  induction digits generalizing word with
  | nil => simp [UInt64.toNat_inj]
  | cons digit rest ih =>
    rw [List.foldlM_cons, List.foldl_cons]
    cases pushed : pushDigit? word digit with
    | some next =>
      rw [pushDigit?_eq_some_iff.mp pushed]
      exact ih
    | none =>
      constructor
      · intro found
        cases found
      · intro same
        have fits := Nat.lt_of_le_of_lt (le_foldl_digits (10 * word.toNat + digitValue digit))
          (same ▸ result.toNat_lt_size)
        have kept := pushDigit?_eq_some_iff.mpr (UInt64.toNat_ofNat_of_lt' fits).symm
        rw [pushed] at kept
        cases kept

/-- Digits are read exactly if the number that they write is a word. -/
theorem decimalWord?_eq_some_iff :
    decimalWord? digits = some result ↔ decimalValue digits = result.toNat :=
  foldlM_pushDigit?_eq_some_iff

end PacketLayout.Text
