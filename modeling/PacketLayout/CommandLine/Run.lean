/-
PacketLayout.CommandLine.Run — what the command does.

A run reads its input, builds the table and writes it, unless it is only
to check, or unless warnings are denied and there are some. Everything
short of the reading and writing itself is a function: `Options.plan`
says, from what was read, either how the run ends or what it writes, and
`Writing.report` how it ends after that.

How the arguments are read, and what keeps the files, is given: `runOn` is
the command with any argument reader and any file system, and `run` with
the reader and the trees of files that are defined here.

The run tells what it does in a log, of which a filter says how much is
shown, and a failure in its errors. It exits with 0 if all went well,
with 1 after a failure, and with 2 if the command line was wrong.
-/
import PacketLayout.CommandLine.Arguments
import PacketLayout.CommandLine.ErrorOutput
import PacketLayout.CommandLine.FileTree
import PacketLayout.CommandLine.LogFilter
import PacketLayout.Workspace

namespace PacketLayout.CommandLine

/-! ## Reports -/

/-- How a run ended. -/
structure Report where
  exit : Nat
  /-- What there is to say about the filter of the log. -/
  remarks : List String := []
  log : List LogLine := []
  /-- The lines of the error output after the log. -/
  errors : List String := []
  output : String := ""
  deriving DecidableEq

/-- The report with the part of its log that a filter shows, and remarks
about that filter. -/
def Report.shownBy (report : Report) (filter : LogFilter × List FilterFault) : Report :=
  { report with
    remarks := filter.2.map FilterFault.remark
    log := report.log.filter filter.1.admits }

/-- The lines of the error output. -/
def Report.errorLines (report : Report) : List ErrorLine :=
  let remarked := report.remarks.foldl ErrorOutput.writeLine {}
  let logged := report.log.foldl ErrorOutput.writeLog remarked
  (report.errors.foldl ErrorOutput.writeLine logged).close

/-- The end of a run that succeeded, or failed for a reason that has no
other behind it. -/
def Report.failed (log : List LogLine) (reason : String) : Report :=
  { exit := 1, log, errors := ["Error: " ++ reason] }

/-- The end of a run that a file has stopped. -/
def Report.stoppedBy (log : List LogLine) (reason : String) (fault : FileError) : Report :=
  { exit := 1, log,
    errors := ["Error: " ++ reason, "", "Caused by:", "    " ++ fault.message] }

/-! ## The steps of a run -/

/-- A file to write, and the log before and after it. -/
structure Writing where
  path : String
  text : String
  log : List LogLine
  success : LogLine
  deriving DecidableEq

/-- What remains to be done once the input has been read. -/
inductive Plan where
  | stop (report : Report)
  | write (writing : Writing)
  deriving DecidableEq

/-- The end of a run after its file has been written, or not. -/
def Writing.report (writing : Writing) (written : Except FileError Unit) : Report :=
  match written with
  | .ok _ => { exit := 0, log := writing.log ++ [writing.success] }
  | .error fault =>
    .stoppedBy writing.log ("write failed: " ++ writing.path) fault

/-- A log line about the run itself. -/
def commandLine (text : String) : LogLine :=
  ⟨.info, .command, text⟩

/-- The first line of the log. -/
def banner : LogLine :=
  commandLine ("Signature Builder " ++ builderVersion ++ " - output format rev" ++ formatRevision)

/-- How many packets, signatures and warnings there are. -/
def summary (packets signatures warnings : Nat) : String :=
  toString packets ++ " packet(s), " ++ toString signatures ++ " signature(s), "
    ++ toString warnings ++ " warning(s)"

namespace Options

/-- The filter of the log. What the environment asks for is heard, but
how much is shown of topics it does not name depends on the options. -/
def logFilter (options : Options) (environment : Environment) :
    LogFilter × List FilterFault :=
  let (filter, faults) := environment.logFilter.elim ({}, []) LogFilter.read
  (filter.set ⟨none, if options.verbose then .debug else .info⟩, faults)

/-- What to do with a table that has been built. -/
def planTable (options : Options) (table : SignatureTable) (warnings : Nat)
    (log : List LogLine) : Plan :=
  let counts := summary table.packets.size table.signatureCount warnings
  if options.denyWarnings && warnings > 0 then
    .stop (.failed log
      (toString warnings ++ " warning(s) reported and --deny-warnings is set"))
  else if options.check then
    .stop { exit := 0, log := log ++ [commandLine ("Check passed: " ++ counts)] }
  else
    .write {
      path := options.outputPath
      text := table.render (if options.pretty then .indented else .compact)
      log
      success := commandLine
        ("Build Success! " ++ counts ++ ". Output File: " ++ options.outputPath) }

/-- What to do with a source. -/
def planSource (options : Options) (source : String) (timestamp : Nat) : Plan :=
  match Workspace.build {} source timestamp with
  | (result, workspace) =>
    let log := banner :: workspace.journal.log
    match result with
    | .error failure => .stop (.failed log failure.message)
    | .ok table => options.planTable table workspace.journal.warningCount log

/-- What to do after the input has been read, or not. -/
def plan (options : Options) (input : Except FileError String) (timestamp : Nat) : Plan :=
  match input with
  | .error fault =>
    .stop (.stoppedBy [banner] ("File not found @ " ++ options.inputPath) fault)
  | .ok source => options.planSource source timestamp

end Options

/-! ## The whole run -/

/-- What `--version` prints. -/
def versionText : String :=
  builderName ++ " " ++ builderVersion ++ "\n"

/-- What `--help` prints. -/
def helpText : String :=
  "\n".intercalate [
    "Packet signature builder",
    "",
    "Usage: sigbuilder [OPTIONS] [INPUT_DIR] [OUTPUT_DIR]",
    "",
    "Arguments:",
    "  [INPUT_DIR]   Directory containing parser.txt "
      ++ "[env: SIGBUILDER_INPUT=] [default: .]",
    "  [OUTPUT_DIR]  Directory receiving _pkts.v5.ignore.json "
      ++ "[env: SIGBUILDER_OUTPUT=] [default: .]",
    "",
    "Options:",
    "      --input-file <FILE>   Read this file instead of INPUT_DIR/parser.txt",
    "      --output-file <FILE>  Write this file instead of OUTPUT_DIR/_pkts.v5.ignore.json",
    "      --pretty              Pretty-print the JSON output",
    "      --check               Compile only; do not write output",
    "      --deny-warnings       Fail when any warning was reported",
    "  -v, --verbose             Enable verbose logging",
    "  -h, --help                Print help",
    "  -V, --version             Print version",
    ""]

/-- The end of a run whose command line is wrong. -/
def Report.usage (fault : UsageError) : Report :=
  { exit := 2
    errors := ["error: " ++ fault.message, "",
      "Usage: sigbuilder [OPTIONS] [INPUT_DIR] [OUTPUT_DIR]", "",
      "For more information, try '--help'."] }

/-- What a run leaves behind: its report, the place that it opened for
writing, if any, and the files. -/
structure Ending (Tree Place : Type) where
  report : Report
  written : Option Place := none
  tree : Tree

section

variable {Tree Place : Type}

/-- Carries out a plan. -/
def Plan.perform (plan : Plan) (files : FileSystem Tree Place) (tree : Tree) :
    Ending Tree Place :=
  match plan with
  | .stop report => { report, tree }
  | .write writing =>
    let written := files.write tree writing.path writing.text.toUTF8
    { report := writing.report written.result, written := written.opened, tree := written.tree }

/-- Runs the command with an argument reader and a file system. -/
def runOn (reader : ArgumentReader) (files : FileSystem Tree Place) (arguments : List String)
    (environment : Environment) (tree : Tree) (timestamp : Nat) : Ending Tree Place :=
  match reader arguments environment with
  | .error fault => { report := .usage fault, tree }
  | .ok .help => { report := { exit := 0, output := helpText }, tree }
  | .ok .version => { report := { exit := 0, output := versionText }, tree }
  | .ok (.run options) =>
    let plan := options.plan (files.readText tree options.inputPath) timestamp
    let ending := plan.perform files tree
    { ending with report := ending.report.shownBy (options.logFilter environment) }

end

/-- Runs the command in a tree of files. -/
def run (arguments : List String) (environment : Environment) (tree : FileTree)
    (timestamp : Nat) : Ending FileTree Path :=
  runOn Request.ofArguments FileTree.fileSystem arguments environment tree timestamp

end PacketLayout.CommandLine
