/-
PacketLayout.Token — the units a packet signature is made of.

A signature says, unit by unit, what the bytes of a packet look like:
literal bytes, sizes of values to be decoded, composite values, the
marks of a repeated group, and the place where a sub-category is put in.
Each unit has one text. `Token.read?` reads the units that may be
written in a layout line: a fixed word, or literal bytes.

* `Token.read?_cases`: what is read is a fixed word or literal bytes.
* `Token.render_of_read?`: what is read renders to the text it was read
  from.
-/
import PacketLayout.Text.Hex

namespace PacketLayout

open Text

/-- Values of more than one part that the decoder knows as a whole. -/
inductive Composite where
  /-- A 64-bit integer. -/
  | int64Pair
  /-- A GBK text with its length in front. -/
  | lengthPrefixedGbk
  /-- A GBK text that ends by itself. -/
  | gbk
  /-- The parameter of the packet. -/
  | param
  deriving DecidableEq

def Composite.text : Composite → String
  | .int64Pair => "64$4"
  | .lengthPrefixedGbk => "73$4$gbk"
  | .gbk => "$gbk"
  | .param => "param"

/-- One unit of a signature. -/
inductive Token where
  /-- Literal bytes in hexadecimal, as they were written. -/
  | hex (digits : String)
  /-- So many zero bytes, as one unit. -/
  | padding (count : Nat)
  /-- A value of so many bytes. -/
  | size (bytes : Nat)
  | composite (value : Composite)
  | repeatStart
  | repeatEnd
  /-- The place where the branches of a packet are put in. -/
  | subCategory
  deriving DecidableEq

namespace Token

/-- The text of a unit. -/
def render : Token → String
  | .hex digits => digits
  | .padding count => String.join (List.replicate count "00")
  | .size bytes => "$" ++ toString bytes
  | .composite value => value.text
  | .repeatStart => "[REPS]"
  | .repeatEnd => "[REPE]"
  | .subCategory => "\x7bSUBCATE\x7d"

/-- The unit has no text: a literal without digits, or no padding. -/
def isEmpty : Token → Bool
  | .hex digits => digits.isEmpty
  | .padding count => count == 0
  | _ => false

/-- The units that are written as a fixed word. -/
def words : List Token :=
  [.composite .int64Pair, .composite .lengthPrefixedGbk, .composite .gbk,
   .composite .param, .size 1, .size 2, .size 4]

/-- The unit a whole text writes: a fixed word, or literal bytes. -/
def read? (text : List Char) : Option Token :=
  match words.find? fun word => word.render.toList == text with
  | some word => some word
  | none => if isHexBytes text then some (.hex (String.ofList text)) else none

/-- What is read is a fixed word, from its own text, or literal bytes. -/
theorem read?_cases {text : List Char} {token : Token} (h : read? text = some token) :
    (token ∈ words ∧ token.render.toList = text) ∨
      (isHexBytes text = true ∧ token = .hex (String.ofList text)) := by
  unfold read? at h
  split at h
  · rename_i word found
    obtain rfl : word = token := by simpa using h
    exact .inl ⟨List.mem_of_find?_eq_some found, by simpa using List.find?_some found⟩
  · split at h
    · rename_i bytes
      obtain rfl : Token.hex (String.ofList text) = token := by simpa using h
      exact .inr ⟨bytes, rfl⟩
    · simp at h

/-- What is read renders to the text it was read from. -/
theorem render_of_read? {text : List Char} {token : Token}
    (h : read? text = some token) : token.render.toList = text := by
  rcases read?_cases h with ⟨-, written⟩ | ⟨-, rfl⟩
  · exact written
  · simp [render]

end Token

end PacketLayout
