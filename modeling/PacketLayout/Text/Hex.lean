/-
PacketLayout.Text.Hex — bytes written in hexadecimal.

A byte is two hexadecimal digits in either case, and a byte string is
one or more bytes with nothing between them. Letters differ from their
capitals for the ASCII alphabet only.
-/
namespace PacketLayout.Text

/-- A hexadecimal digit, in either case. -/
def isHexDigit (c : Char) : Bool :=
  c.isDigit || ('a' ≤ c && c ≤ 'f') || ('A' ≤ c && c ≤ 'F')

/-- One or more bytes, each written as two hexadecimal digits. -/
def isHexBytes (text : List Char) : Bool :=
  !text.isEmpty && text.length % 2 == 0 && text.all isHexDigit

/-- The text with each letter `a` to `z` made a capital. -/
def upper (text : String) : String :=
  String.ofList (text.toList.map Char.toUpper)

/-- The texts differ at most in the case of letters `a` to `z`. -/
def equalIgnoringCase (left right : String) : Bool :=
  upper left == upper right

theorem isHexBytes_iff {text : List Char} :
    isHexBytes text = true ↔
      text ≠ [] ∧ text.length % 2 = 0 ∧ ∀ c ∈ text, isHexDigit c = true := by
  simp [isHexBytes, and_assoc]

/-- A character that is not a small letter is its own capital. -/
theorem toUpper_eq_self {c : Char} (h : ¬ ('a' ≤ c ∧ c ≤ 'z')) : c.toUpper = c := by
  unfold Char.toUpper
  rw [dif_neg]
  exact h

/-- A capital is its own capital. -/
theorem toUpper_toUpper (c : Char) : c.toUpper.toUpper = c.toUpper := by
  by_cases small : 'a' ≤ c ∧ c ≤ 'z'
  · refine toUpper_eq_self fun again => ?_
    unfold Char.toUpper at again
    simp only [Char.le_def, UInt32.le_iff_toNat_le] at small again
    rw [dif_pos (by simpa [UInt32.le_iff_toNat_le] using small)] at again
    simp at again small
    omega
  · rw [toUpper_eq_self small, toUpper_eq_self small]

theorem upper_upper (text : String) : upper (upper text) = upper text := by
  unfold upper
  rw [String.toList_ofList, List.map_map]
  exact congrArg String.ofList (List.map_congr_left fun c _ => toUpper_toUpper c)

/-- What is no capital is a capital of itself only. -/
theorem eq_of_toUpper_eq {c d : Char} (h : c.toUpper = d) (other : ¬ ('A' ≤ d ∧ d ≤ 'Z')) :
    c = d := by
  by_cases small : 'a' ≤ c ∧ c ≤ 'z'
  · exfalso
    have value := congrArg (fun c : Char => c.val.toNat) h
    unfold Char.toUpper at value
    simp only [Char.le_def, UInt32.le_iff_toNat_le] at small other
    rw [dif_pos (by simpa [UInt32.le_iff_toNat_le] using small)] at value
    simp at value small other
    omega
  · rwa [toUpper_eq_self small] at h

end PacketLayout.Text
