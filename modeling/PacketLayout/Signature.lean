/-
PacketLayout.Signature — a packet's byte pattern as a sequence of units.

A signature is written as the texts of its units, one space between two
of them; units without text leave no trace. `expand` puts a branch where
the sub-category marks stand.

* `expand_append`, `expand_of_not_mem`: expansion goes unit by unit, and
  touches nothing but the marks.
-/
import PacketLayout.Token

namespace PacketLayout

/-- The units of a byte pattern, in order. -/
abbrev Signature := List Token

namespace Signature

/-- The texts of the units that have one, with a space between them. -/
def render (signature : Signature) : String :=
  " ".intercalate ((signature.filter fun token => !token.isEmpty).map Token.render)

/-- No unit has a text. -/
def isBlank (signature : Signature) : Bool :=
  signature.all Token.isEmpty

/-- Puts `branch` in the place of every sub-category mark. -/
def expand (main branch : Signature) : Signature :=
  main.flatMap fun token => if token = .subCategory then branch else [token]

theorem expand_append (first second branch : Signature) :
    expand (first ++ second) branch = expand first branch ++ expand second branch := by
  simp [expand]

theorem expand_of_not_mem {main : Signature} (branch : Signature)
    (h : Token.subCategory ∉ main) : expand main branch = main := by
  induction main with
  | nil => rfl
  | cons token rest ih =>
    have hne : token ≠ .subCategory := fun eq => h (by simp [eq])
    have hrest : Token.subCategory ∉ rest := fun mem => h (by simp [mem])
    have later := ih hrest
    simp only [expand] at later
    simp [expand, hne, later]

end Signature

end PacketLayout
