/-
PacketLayout.DeclarationHeader — lines that open a declaration.

A fragment is opened by `Fragment[name]`, which may have a plus sign in
front, so that a reference to a fragment reads as its header too. A
packet is opened by `Packet[description]:HEX`. Spaces and tabs may end
either line. The bytes of a packet are its header, in capitals.
-/
import PacketLayout.ControlLine
import PacketLayout.Text.Hex

namespace PacketLayout

open Text

/-- The description and the header of a packet. -/
structure PacketHeader where
  description : String
  header : String
  deriving DecidableEq

/-- The name in the header of a fragment. -/
def readFragmentHeader? (text : List Char) : Option String :=
  readFragmentName? ((afterSign? "+" text).getD text)

/-- Reads the bytes behind the bracket of a packet's header. -/
def readPacketBytes? (rest : List Char) : Option String :=
  let bytes := rest.takeWhile fun c => !isSpace c
  if isHexBytes bytes && endsLine (rest.dropWhile fun c => !isSpace c) then
    some (upper (String.ofList bytes))
  else none

/-- Reads the header of a packet. -/
def readPacketHeader? (text : List Char) : Option PacketHeader :=
  match (after? "Packet[" text).bind bracketed? with
  | some (description, ':' :: rest) =>
    if description.isEmpty then none
    else (readPacketBytes? rest).map fun header => ⟨String.ofList description, header⟩
  | _ => none

end PacketLayout
