/-
PacketLayout.Text.ControlSequence — what a terminal would show of a text.

A text can hold control characters and the sequences that command a
terminal: escape sequences, control sequences, operating system commands
and control strings. What is left without them is the visible text. Tabs,
line ends, form feeds and carriage returns are white space, not control,
and stay, even where they interrupt a sequence. Such a sequence is
suspended: the text after the interruption is visible until a control
character takes the sequence up again.
-/
namespace PacketLayout.Text

/-! ## Characters -/

/-- The control characters that are white space. -/
def isBlankControl (c : Char) : Bool :=
  c == '\t' || c == '\n' || c == '\x0c' || c == '\r'

/-- A character that is shown outside of sequences. -/
def isShown (c : Char) : Bool :=
  (' ' ≤ c && c != '\x7f') || isBlankControl c

/-- The characters that end every sequence. -/
def isCancel (c : Char) : Bool :=
  c == '\x18' || c == '\x1a'

/-- The character is one of those from `first` to `last`. -/
def isBetween (first last c : Char) : Bool :=
  first ≤ c && c ≤ last

/-! ## Sequences -/

/-- How far a sequence has come. -/
inductive Sequence where
  /-- The escape character has been read. -/
  | escape
  /-- An escape sequence is in its intermediate characters. -/
  | intermediate
  /-- A control sequence, which starts with `ESC [`. -/
  | control
  /-- An operating system command, which starts with `ESC ]`. -/
  | command
  /-- A device control string, which starts with `ESC P`. -/
  | device
  /-- A device control string is in its parameters. -/
  | deviceParameter
  /-- A device control string is in its intermediate characters. -/
  | deviceIntermediate
  /-- The text of a control string. -/
  | string
  deriving DecidableEq

namespace Sequence

/-- White space interrupts the sequence, and is not part of it. -/
def yields : Sequence → Bool
  | escape | intermediate | control => true
  | _ => false

/-- How an escape sequence goes on. -/
def ofIntroducer (c : Char) : Option Sequence :=
  if isBetween ' ' '/' c then some .intermediate
  else if c = '[' then some .control
  else if c = ']' then some .command
  else if c = 'P' then some .device
  else if c = 'X' ∨ c = '^' ∨ c = '_' then some .string
  else if isBetween '0' '~' c then none
  else some .escape

/-- How a sequence goes on with a character, if that does not end it.
Characters that have no meaning in a sequence change nothing. The text
of a control string ends where the code of a character holds the
byte 9C, which is the one that ends strings in eight-bit codes. -/
def next? (sequence : Sequence) (c : Char) : Option Sequence :=
  match sequence with
  | .escape => ofIntroducer c
  | .intermediate => if isBetween '0' '~' c then none else some .intermediate
  | .control => if isBetween '@' '~' c then none else some .control
  | .command => if c = '\x07' then none else some .command
  | .device =>
    if isBetween ' ' '/' c then some .deviceIntermediate
    else if isBetween '0' '?' c then some .deviceParameter
    else if isBetween '@' '~' c then some .string
    else some .device
  | .deviceParameter =>
    if isBetween ' ' '/' c then some .deviceIntermediate
    else if isBetween '<' '~' c then some .string
    else some .deviceParameter
  | .deviceIntermediate =>
    if isBetween '0' '~' c then some .string else some .deviceIntermediate
  | .string => if (String.utf8EncodeChar c).contains 0x9c then none else some .string

end Sequence

/-! ## The visible text -/

/-- What a terminal makes of the next character. -/
inductive Display where
  /-- It is shown, if it is no control character. -/
  | plain
  /-- It belongs to a sequence. -/
  | inside (sequence : Sequence)
  /-- It is shown, but a sequence has not ended. -/
  | suspended (sequence : Sequence)
  deriving DecidableEq

/-- The display after a character, and whether that is shown. A
character beyond ASCII ends a suspended sequence. -/
def Display.step (display : Display) (c : Char) : Display × Bool :=
  if c = '\x1b' then (.inside .escape, false)
  else if isCancel c then (.plain, false)
  else
    match display with
    | .plain => (.plain, isShown c)
    | .inside sequence =>
      if sequence.yields && isBlankControl c then (.suspended sequence, true)
      else ((sequence.next? c).elim .plain .inside, false)
    | .suspended sequence =>
      if !isShown c then (.inside sequence, false)
      else if c ≤ '\x7f' then (.suspended sequence, true)
      else (.plain, true)

/-- The visible part of a text. -/
def visibleFrom (display : Display) : List Char → List Char
  | [] => []
  | c :: rest =>
    match display.step c with
    | (next, true) => c :: visibleFrom next rest
    | (next, false) => visibleFrom next rest

/-- The visible part of a text that stands by itself. -/
def visible (text : List Char) : List Char :=
  visibleFrom .plain text

end PacketLayout.Text
