/-
PacketLayout.FieldLine — body lines that add a unit and its field.

There are two forms: `pad-N` for padding, and `name:unit`, followed by
any number of `:qualifier`. A line that is neither, such as a control
line or a branch header, is no field line, which is not an error. A line
that has the form of a field line but names no unit is an error, and so
is padding without a number or of more than `maxPadding` bytes.
-/
import PacketLayout.Qualifier
import PacketLayout.Text.Decimal
import PacketLayout.Token

namespace PacketLayout

open Text

/-- The largest padding that a line can ask for, in bytes. -/
def maxPadding : Nat := 4096

/-- A unit, the field that describes it, and the remarks that reading
its line gave. -/
structure FieldLine where
  token : Token
  field : Field
  remarks : List Remark
  deriving DecidableEq

namespace FieldLine

/-- Reads what stands behind `pad-`. -/
def readPadding (rest : List Char) : Except Cause FieldLine :=
  let count := trim rest
  match decimal? count with
  | some n =>
    if n.toNat ≤ maxPadding then .ok ⟨.padding n.toNat, .padding, []⟩
    else .error (.invalidPadding (String.ofList count))
  | none => .error (.invalidPadding (String.ofList count))

/-- Reads a name, a unit and the qualifiers behind them. -/
def readParts (name unit : List Char) (qualifiers : List (List Char)) :
    Except Cause FieldLine :=
  match Token.read? (trim unit) with
  | some token =>
    let qualified := Field.qualifyAll ⟨String.ofList (trim name), none, none, none⟩ qualifiers
    .ok ⟨token, qualified.1, qualified.2⟩
  | none => .error (.invalidToken (String.ofList (trim unit)))

/-- Reads a line; `none` means that it is no field line. -/
def read (text : List Char) : Except Cause (Option FieldLine) :=
  if let some rest := after? "pad-" text then
    (readPadding rest).map some
  else if startsWith "SubCate[" text then
    .ok none
  else
    match pieces ':' text with
    | (_, []) => .ok none
    | (name, unit :: qualifiers) => (readParts name unit qualifiers).map some

end FieldLine

end PacketLayout
