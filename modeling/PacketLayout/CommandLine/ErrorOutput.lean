/-
PacketLayout.CommandLine.ErrorOutput — the lines of the error output.

The log and the remarks and errors of a run go to one output, which a
reader sees as lines. Each log line is written by itself: the later lines
of a message are indented, and control characters are left out, so that
no message can command a terminal. A control sequence that is still open
takes the line end with it, and what is written next goes on in the same
line.
-/
import PacketLayout.Journal
import PacketLayout.Text.ControlSequence
import PacketLayout.Text.Scan

namespace PacketLayout.CommandLine

open Text

/-! ## Log lines -/

/-- The text with every line but the first indented by four spaces. -/
def indentLater (text : List Char) : List Char :=
  let (first, later) := pieces '\n' text
  joinPieces '\n' first (later.map (List.replicate 4 ' ' ++ ·))

/-- A log line as it is printed, with its end. -/
def printed (line : LogLine) : List Char :=
  visible (indentLater line.render.toList ++ ['\n'])

/-! ## Lines of the output -/

/-- A line, and whether it starts with the head of a log line. -/
structure ErrorLine where
  logged : Bool
  text : List Char
  deriving DecidableEq

/-- The lines that have ended, and the one that has not. -/
structure ErrorOutput where
  lines : List ErrorLine := []
  pending : Option ErrorLine := none
  deriving DecidableEq

namespace ErrorOutput

/-- Ends the output: what has not ended yet is a line as well. -/
def close (output : ErrorOutput) : List ErrorLine :=
  output.lines ++ output.pending.toList

/-- Goes on with more lines, the last of which has not ended. -/
def addLines (output : ErrorOutput) (line : ErrorLine) : List (List Char) → ErrorOutput
  | [] => { output with pending := if line.text.isEmpty then none else some line }
  | next :: rest =>
    { output with lines := output.lines ++ [line] }.addLines ⟨false, next⟩ rest

/-- Writes a text that starts with the head of a log line, or does not. -/
def write (output : ErrorOutput) (logged : Bool) (text : List Char) : ErrorOutput :=
  let (first, rest) := pieces '\n' text
  let line := match output.pending with
    | some line => { line with text := line.text ++ first }
    | none => ⟨logged, first⟩
  output.addLines line rest

/-- Writes a line as it stands. -/
def writeLine (output : ErrorOutput) (line : String) : ErrorOutput :=
  output.write false (line.toList ++ ['\n'])

def writeLog (output : ErrorOutput) (line : LogLine) : ErrorOutput :=
  output.write true (printed line)

end ErrorOutput

end PacketLayout.CommandLine
