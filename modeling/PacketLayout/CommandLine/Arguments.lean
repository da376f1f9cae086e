/-
PacketLayout.CommandLine.Arguments — the arguments of the command.

The command takes up to two directories, to read from and to write to,
and options in between, behind or before them. A long option that takes
a value takes it after `=` or from the next argument; the one-letter
options take none and may share a dash. Everything after `--` is a
directory. A directory that is not given comes from the environment,
and is the current one if that has none either.

Arguments are read from left to right, and the first of them that ends
the matter does: a fault is a usage error, and a request for help or for
the version is granted, whatever comes after it.
-/
import PacketLayout.CommandLine.Options

namespace PacketLayout.CommandLine

/-! ## Arguments -/

/-- The form of an argument. -/
inductive Argument where
  /-- `--`: all that follows are values. -/
  | terminator
  /-- `--name` or `--name=value`. -/
  | long (name : String) (value : Option String)
  /-- `-abc`: one-letter options. -/
  | short (letters : List Char)
  | plain (text : String)
  deriving DecidableEq

/-- Splits `name=value` at its first equals sign. -/
def Argument.ofLong (text : List Char) : Argument :=
  let name := String.ofList (text.takeWhile (· != '='))
  match text.dropWhile (· != '=') with
  | [] => .long name none
  | _ :: value => .long name (some (String.ofList value))

/-- The form of an argument. A dash by itself is a value. -/
def Argument.ofString (text : String) : Argument :=
  match text.toList with
  | ['-', '-'] => .terminator
  | '-' :: '-' :: rest => .ofLong rest
  | ['-'] => .plain text
  | '-' :: letters => .short letters
  | _ => .plain text

/-! ## Reading -/

/-- What has been given so far. -/
structure Given where
  inputDir : Option String := none
  outputDir : Option String := none
  inputFile : Option String := none
  outputFile : Option String := none
  pretty : Bool := false
  check : Bool := false
  denyWarnings : Bool := false
  verbose : Bool := false
  deriving DecidableEq

/-- What one option comes to: more is given, or the matter is
ended. -/
inductive Step where
  | given (given : Given)
  | granted (request : Request)
  deriving DecidableEq

namespace Given

/-- Takes a directory: the first is for input, the second for output. -/
def directory (given : Given) (text : String) : Except UsageError Given :=
  if given.inputDir.isNone then
    if text.isEmpty then .error (.emptyValue "[INPUT_DIR]")
    else .ok { given with inputDir := some text }
  else if given.outputDir.isNone then
    if text.isEmpty then .error (.emptyValue "[OUTPUT_DIR]")
    else .ok { given with outputDir := some text }
  else .error (.tooMany text)

/-- Takes directories only. -/
def directories (given : Given) : List String → Except UsageError Given
  | [] => .ok given
  | text :: rest =>
    match given.directory text with
    | .ok more => more.directories rest
    | .error fault => .error fault

/-- Sets a switch that is not set yet. -/
def switch (option : String) (present : Bool) (set : Given) : Except UsageError Step :=
  if present then .error (.repeated option) else .ok (.given set)

/-- Takes an option without a value, by its long name. -/
def flag (given : Given) (name : String) : Except UsageError Step :=
  match name with
  | "pretty" => switch "--pretty" given.pretty { given with pretty := true }
  | "check" => switch "--check" given.check { given with check := true }
  | "deny-warnings" =>
    switch "--deny-warnings" given.denyWarnings { given with denyWarnings := true }
  | "verbose" => switch "--verbose" given.verbose { given with verbose := true }
  | "help" => .ok (.granted .help)
  | "version" => .ok (.granted .version)
  | _ => .error (.unknownOption ("--" ++ name))

/-- The options without a value. -/
def flagNames : List String :=
  ["pretty", "check", "deny-warnings", "verbose", "help", "version"]

/-- The long name of a one-letter option. -/
def ofLetter : Char → Option String
  | 'v' => some "verbose"
  | 'h' => some "help"
  | 'V' => some "version"
  | _ => none

/-- Takes one-letter options. -/
def letters (given : Given) : List Char → Except UsageError Step
  | [] => .ok (.given given)
  | letter :: rest =>
    match ofLetter letter with
    | none => .error (.unknownOption (String.ofList ['-', letter]))
    | some name =>
      match given.flag name with
      | .ok (.given more) => more.letters rest
      | ended => ended

/-- Takes the value of a file option. -/
def file (given : Given) (name value : String) : Except UsageError Given :=
  if name = "input-file" then
    if given.inputFile.isSome then .error (.repeated "--input-file <FILE>")
    else if value.isEmpty then .error (.emptyValue "--input-file <FILE>")
    else .ok { given with inputFile := some value }
  else
    if given.outputFile.isSome then .error (.repeated "--output-file <FILE>")
    else if value.isEmpty then .error (.emptyValue "--output-file <FILE>")
    else .ok { given with outputFile := some value }

/-- The options with a value. -/
def fileNames : List String :=
  ["input-file", "output-file"]

/-- The fault of a file option without a value. -/
def noValue (name : String) : UsageError :=
  .missingValue ("--" ++ name ++ " <FILE>")

/-- Reads the arguments from left to right; `waiting` is the file option
whose value must come next. Only a plain argument can be one. -/
def read (given : Given) (waiting : Option String) : List String → Except UsageError Step
  | [] =>
    match waiting with
    | some name => .error (noValue name)
    | none => .ok (.given given)
  | argument :: rest =>
    match waiting, Argument.ofString argument with
    | some name, .plain text =>
      match given.file name text with
      | .ok more => more.read none rest
      | .error fault => .error fault
    | some name, _ => .error (noValue name)
    | none, .terminator => (given.directories rest).map .given
    | none, .plain text =>
      match given.directory text with
      | .ok more => more.read none rest
      | .error fault => .error fault
    | none, .short letters =>
      match given.letters letters with
      | .ok (.given more) => more.read none rest
      | ended => ended
    | none, .long name (some text) =>
      if fileNames.contains name then
        match given.file name text with
        | .ok more => more.read none rest
        | .error fault => .error fault
      else if flagNames.contains name then .error (.unwantedValue ("--" ++ name) text)
      else .error (.unknownOption ("--" ++ name))
    | none, .long name none =>
      if fileNames.contains name then given.read (some name) rest
      else
        match given.flag name with
        | .ok (.given more) => more.read none rest
        | ended => ended

end Given

/-- A directory as it was given, or from the environment, or the current
one. -/
def directoryOr (given fromEnvironment : Option String) (option : String) :
    Except UsageError String :=
  match given, fromEnvironment with
  | some text, _ => .ok text
  | none, some text => if text.isEmpty then .error (.emptyValue option) else .ok text
  | none, none => .ok "."

/-- Fills in what has not been given. -/
def Given.complete (given : Given) (environment : Environment) :
    Except UsageError Options :=
  match directoryOr given.inputDir environment.inputDir "[INPUT_DIR]",
      directoryOr given.outputDir environment.outputDir "[OUTPUT_DIR]" with
  | .error fault, _ => .error fault
  | .ok _, .error fault => .error fault
  | .ok inputDir, .ok outputDir =>
    .ok {
      inputDir, outputDir
      inputFile := given.inputFile
      outputFile := given.outputFile
      pretty := given.pretty
      check := given.check
      denyWarnings := given.denyWarnings
      verbose := given.verbose }

/-- What a command line asks for. -/
def Request.ofArguments (arguments : List String) (environment : Environment) :
    Except UsageError Request :=
  match Given.read {} none arguments with
  | .error fault => .error fault
  | .ok (.granted request) => .ok request
  | .ok (.given given) => (given.complete environment).map .run

end PacketLayout.CommandLine
