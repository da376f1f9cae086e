/-
PacketLayout.Main — the command.

Reads and writes the files that a run asks for, and prints its report.
-/
import PacketLayout.CommandLine.Run
import Std.Time

namespace PacketLayout.CommandLine

/-- The fault with a code and a wording of the system. Some operations
give the code with its sign turned. -/
def faultOfCode (code : UInt32) (details : String) : FileError :=
  match min code.toNat (-code).toNat with
  | 2 => .notFound
  | 13 => .permissionDenied
  | 20 => .notDirectory
  | 21 => .isDirectory
  | 28 => .noSpace
  | 36 => .nameTooLong
  | n => .other (details ++ " (os error " ++ toString n ++ ")")

/-- The fault of a file operation. -/
def fileFault : IO.Error → FileError
  | .noFileOrDirectory .. => .notFound
  | .inappropriateType _ code details => faultOfCode code details
  | .invalidArgument _ code details => faultOfCode code details
  | .permissionDenied _ code details => faultOfCode code details
  | .resourceExhausted _ code details => faultOfCode code details
  | fault => .other (toString fault)

/-- The text of a file. -/
def readText (path : String) : IO (Except FileError String) := do
  try
    return textOf (← IO.FS.readBinFile path)
  catch fault => return .error (fileFault fault)

/-- Writes a file. What is written is handed to the system before the file
is closed, so that no fault is lost. -/
def writeText (path text : String) : IO (Except FileError Unit) := do
  try
    IO.FS.withFile path .write fun file => do
      file.putStr text
      file.flush
    return .ok ()
  catch fault => return .error (fileFault fault)

/-- Prints a report. -/
def printReport (report : Report) : IO UInt32 := do
  for line in report.errorLines do
    IO.eprintln (String.ofList line.text)
  IO.print report.output
  return report.exit.toUInt32

/-- Runs the command with the files of the system. -/
def runOnSystem (arguments : List String) : IO UInt32 := do
  let environment : Environment :=
    { inputDir := ← IO.getEnv Environment.inputVariable
      outputDir := ← IO.getEnv Environment.outputVariable
      logFilter := ← IO.getEnv Environment.logVariable }
  match Request.ofArguments arguments environment with
  | .error fault => printReport (.usage fault)
  | .ok .help => printReport { exit := 0, output := helpText }
  | .ok .version => printReport { exit := 0, output := versionText }
  | .ok (.run options) => do
    let now ← Std.Time.Timestamp.now
    let input ← readText options.inputPath
    let filter := options.logFilter environment
    match options.plan input now.toMillisecondsSinceUnixEpoch.toInt.toNat with
    | .stop report => printReport (report.shownBy filter)
    | .write writing => do
      let written ← writeText writing.path writing.text
      printReport ((writing.report written).shownBy filter)

end PacketLayout.CommandLine

def main (arguments : List String) : IO UInt32 :=
  PacketLayout.CommandLine.runOnSystem arguments
