/-
PacketLayout.CommandLine.Options — what a run can be asked to do.

A run is asked to read a file from one directory and to write one to
another, or to read and to write the files that are named, and it can be
told how to write, to write nothing, or to take warnings for failures.

How the arguments are written is the matter of an argument reader. The
command is given one, and relies only on what `ArgumentReader.Lawful`
says of it.
-/
namespace PacketLayout.CommandLine

/-- What is wrong with a command line. -/
inductive UsageError where
  | unknownOption (text : String)
  /-- An option that can be given once is given again. -/
  | repeated (option : String)
  | missingValue (option : String)
  /-- A value is given, and it is empty. -/
  | emptyValue (option : String)
  /-- A value is given to an option that takes none. -/
  | unwantedValue (option value : String)
  /-- A third directory. -/
  | tooMany (text : String)
  deriving DecidableEq

def UsageError.message : UsageError → String
  | .unknownOption text => "unexpected argument '" ++ text ++ "' found"
  | .repeated option => "the argument '" ++ option ++ "' cannot be used multiple times"
  | .missingValue option =>
    "a value is required for '" ++ option ++ "' but none was supplied"
  | .emptyValue option =>
    "a value is required for '" ++ option ++ "' but none was supplied"
  | .unwantedValue option value =>
    "unexpected value '" ++ value ++ "' for '" ++ option ++ "' found; no more were expected"
  | .tooMany text => "unexpected argument '" ++ text ++ "' found"

/-- The variables that stand in for directories that are not given, and
the one that says what the log shows. -/
structure Environment where
  inputDir : Option String := none
  outputDir : Option String := none
  logFilter : Option String := none
  deriving DecidableEq

def Environment.inputVariable : String := "SIGBUILDER_INPUT"

def Environment.outputVariable : String := "SIGBUILDER_OUTPUT"

def Environment.logVariable : String := "RUST_LOG"

/-- What a run is asked to do. -/
structure Options where
  inputDir : String := "."
  outputDir : String := "."
  /-- Read this file, wherever the input directory is. -/
  inputFile : Option String := none
  /-- Write this file, wherever the output directory is. -/
  outputFile : Option String := none
  pretty : Bool := false
  /-- Compile only, and write nothing. -/
  check : Bool := false
  denyWarnings : Bool := false
  verbose : Bool := false
  deriving DecidableEq

/-- What the command line asks for. -/
inductive Request where
  | help
  | version
  | run (options : Options)
  deriving DecidableEq

/-! ## Paths -/

/-- The path of a name in a directory. -/
def joinPath (directory name : String) : String :=
  if directory = "" ∨ directory.toList.getLast? = some '/' then directory ++ name
  else directory ++ "/" ++ name

namespace Options

/-- The file that is read. -/
def inputPath (options : Options) : String :=
  options.inputFile.getD (joinPath options.inputDir "parser.txt")

/-- The file that is written. -/
def outputPath (options : Options) : String :=
  options.outputFile.getD (joinPath options.outputDir "_pkts.v5.ignore.json")

end Options

/-! ## Argument readers -/

/-- Reads what the arguments ask for, with the environment behind them. -/
abbrev ArgumentReader := List String → Environment → Except UsageError Request

/-- `--check` is among the options: behind `--` there are only
directories. -/
def asksToCheck (arguments : List String) : Bool :=
  (arguments.takeWhile (· != "--")).contains "--check"

/-- The same, and only to check. -/
def Request.checked : Request → Request
  | .run options => .run { options with check := true }
  | other => other

/-- What the command relies on: in front of arguments that do not ask for
it, `--check` is a switch that looks at nothing but itself. -/
structure ArgumentReader.Lawful (reader : ArgumentReader) : Prop where
  check_ok {arguments : List String} {environment : Environment} {request : Request} :
    asksToCheck arguments = false → reader arguments environment = .ok request →
      reader ("--check" :: arguments) environment = .ok request.checked
  check_error {arguments : List String} {environment : Environment} {fault : UsageError} :
    asksToCheck arguments = false → reader arguments environment = .error fault →
      ∃ other, reader ("--check" :: arguments) environment = .error other

end PacketLayout.CommandLine
