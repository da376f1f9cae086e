/-
PacketLayout.BranchHeader — lines that open a branch of a packet.

A branch is opened by `SubCate[description]`, with the bytes that tell it
from the others written inside the bracket, `SubCate[description:HEX]`,
or behind it, `SubCate[description]:HEX`. Either part may be missing,
but not both. Where bytes are written in both places, those behind the
bracket count.
-/
import PacketLayout.Failure
import PacketLayout.Text.Blank
import PacketLayout.Text.Hex
import PacketLayout.Text.Scan

namespace PacketLayout

open Text

/-- The header of a branch; the description is empty if none is given. -/
structure BranchHeader where
  description : String
  discriminator : Option String
  deriving DecidableEq

namespace BranchHeader

/-- The written parts of a header: the description, and the texts inside
the bracket and behind it that may hold the discriminator. A part that
is not there is empty. -/
structure Parts where
  description : List Char
  inner : List Char
  outer : List Char
  deriving DecidableEq

/-- What may follow the closing bracket: nothing, or a colon and some
text. -/
def outer? : List Char → Option (List Char)
  | [] => some []
  | ':' :: c :: rest => some (c :: rest)
  | _ => none

/-- Takes a header apart. -/
def parts? (text : List Char) : Option Parts :=
  match after? "SubCate[" text with
  | none => none
  | some rest =>
    match bracketed? rest with
    | none => none
    | some (inside, behind) =>
      (outer? behind).map fun outer =>
        ⟨inside.takeWhile (· != ':'), (inside.dropWhile (· != ':')).drop 1, outer⟩

/-- The text trimmed, if anything is left of it. -/
def written? (text : List Char) : Option (List Char) :=
  if trim text = [] then none else some (trim text)

/-- Reads a header. -/
def read (text : List Char) : Except Cause BranchHeader :=
  match parts? text with
  | none => .error .malformedBranch
  | some parts =>
    let description := trim parts.description
    match (written? parts.outer).or (written? parts.inner) with
    | none =>
      if description = [] then .error .malformedBranch
      else .ok ⟨String.ofList description, none⟩
    | some bytes =>
      if isHexBytes bytes then .ok ⟨String.ofList description, some (String.ofList bytes)⟩
      else .error (.nonHexDiscriminator (String.ofList bytes))

end BranchHeader

end PacketLayout
