/-
PacketLayout.Proofs.CommandLine.Delivery — what a run of the command leaves
behind.

The argument reader and the file system are any that can be relied on. A
run opens a file for writing in one case only: it is asked for more than a
check, its input can be read and built, no warning that was raised is
denied, and the output path can be opened. `Writes` puts this together.
Then either all of the table is written and the run succeeds, or there is
a fault on the way and it fails; what is in the file at that time stays
there. Nothing else is changed by any run.

To check is to do all but the writing. So `--check` in front of the
arguments changes the exit only of a run whose writing fails.

* `Options.plan_eq_write_iff`: when there is something to write.
* `FileSystem.write_cases`: what a write does to the files.
* `exit_runOn_check`: only to check ends like a run that can write.
* `run_changes`: what a run changes, and how it ends.
* `fails_with_output`: a run can fail and leave a part of the table.
-/
import PacketLayout.CommandLine.Run
import PacketLayout.Proofs.CommandLine.CheckSwitch
import PacketLayout.Proofs.CommandLine.FileTree

namespace PacketLayout.CommandLine

/-! ## Plans -/

namespace Options

variable {options : Options} {input : Except FileError String} {timestamp : Nat}

/-- How the table is laid out. -/
def layout (options : Options) : Json.Layout :=
  if options.pretty then .indented else .compact

/-- A source is read, the table is built from it, and no warning that was
raised is denied. -/
inductive Builds (options : Options) (timestamp : Nat) :
    Except FileError String → SignatureTable → Prop
  | intro {source : String} {table : SignatureTable} {workspace : Workspace}
    (built : Workspace.build {} source timestamp = (.ok table, workspace))
    (admitted : options.denyWarnings = false ∨ workspace.journal.warningCount = 0) :
    Builds options timestamp (.ok source) table

/-- There is something to write exactly if a table is built and the run is
not only to check: the table, to the output path. -/
theorem plan_eq_write_iff {path text : String} :
    (∃ log success, options.plan input timestamp = .write ⟨path, text, log, success⟩) ↔
      options.check = false ∧ path = options.outputPath ∧
        ∃ table, options.Builds timestamp input table ∧ text = table.render options.layout := by
  constructor
  · rintro ⟨log, success, planned⟩
    cases input with
    | error fault => cases planned
    | ok source =>
      rcases built : Workspace.build {} source timestamp with ⟨_ | table, workspace⟩
      · rw [plan, planSource, built] at planned
        cases planned
      · rw [plan, planSource, built] at planned
        dsimp only [planTable] at planned
        split at planned
        · cases planned
        · rename_i admitted
          split at planned
          · cases planned
          · rename_i checks
            cases planned
            refine ⟨by simpa using checks, rfl, table, .intro built ?_, rfl⟩
            simpa [Decidable.imp_iff_not_or] using admitted
  · rintro ⟨checks, rfl, table, ⟨built, admitted⟩, rfl⟩
    rw [plan, planSource, built]
    dsimp only [planTable]
    rw [if_neg (by simpa [Decidable.imp_iff_not_or] using admitted), if_neg (by simp [checks])]
    exact ⟨_, _, rfl⟩

end Options

/-! ## Writes -/

section

variable {Tree Place : Type} {files : FileSystem Tree Place}

/-- What becomes of a write once its path has been opened. -/
theorem FileSystem.write_of_create {tree opened : Tree} {path : String} {place : Place}
    (opens : files.create tree path = (.ok place, opened)) (bytes : ByteArray) :
    files.write tree path bytes
      = ⟨(files.writeAll opened place bytes).1, some place,
          (files.writeAll opened place bytes).2⟩ := by
  unfold write
  rw [opens]

/-- A write fails to open its path and changes nothing, or it changes at
most the place that the path leads to, and puts all the bytes there if it
ends without a fault. -/
theorem FileSystem.write_cases (lawful : files.Lawful) (tree : Tree) (path : String)
    (bytes : ByteArray) :
    ((∀ place opened, files.create tree path ≠ (.ok place, opened)) ∧
      files.content? (files.write tree path bytes).tree = files.content? tree ∧
      ∃ fault, (files.write tree path bytes).result = .error fault) ∨
    ∃ place opened, files.create tree path = (.ok place, opened) ∧
      (∀ other, other ≠ place →
        files.content? (files.write tree path bytes).tree other = files.content? tree other) ∧
      files.place? (files.write tree path bytes).tree path = some place ∧
      ((files.write tree path bytes).result = .ok () → (files.content? opened place).isSome →
        files.content? (files.write tree path bytes).tree place = some bytes) := by
  rcases opens : files.create tree path with ⟨fault | place, opened⟩
  · have fails : files.write tree path bytes = ⟨.error fault, none, opened⟩ := by
      unfold write
      rw [opens]
    rw [fails]
    refine .inl ⟨?_, lawful.create_error opens, fault, rfl⟩
    intro place others same
    simp at same
  · rw [write_of_create opens]
    refine .inr ⟨place, opened, rfl, ?_, lawful.place?_writeAll opens rfl, ?_⟩
    · intro other different
      calc files.content? (files.writeAll opened place bytes).2 other
          = files.content? opened other := lawful.writeAll_other rfl different
        _ = files.content? tree other := lawful.create_other opens different
    · intro written kept
      exact lawful.writeAll_ok opens kept (Prod.ext written rfl)

/-! ## Plans that are carried out -/

/-- A plan that has something to write ends as the write does. -/
theorem Plan.exit_perform_write (files : FileSystem Tree Place) (writing : Writing)
    (tree : Tree) :
    (files.write tree writing.path writing.text.toUTF8).result = .ok () ∧
        ((Plan.write writing).perform files tree).report.exit = 0 ∨
      ∃ fault, (files.write tree writing.path writing.text.toUTF8).result = .error fault ∧
        ((Plan.write writing).perform files tree).report.exit = 1 := by
  dsimp only [Plan.perform]
  cases (files.write tree writing.path writing.text.toUTF8).result with
  | ok done => exact .inl ⟨rfl, rfl⟩
  | error fault => exact .inr ⟨fault, rfl, rfl⟩

theorem Plan.exit_perform_write_ok {writing : Writing} {tree : Tree}
    (done : (files.write tree writing.path writing.text.toUTF8).result = .ok ()) :
    ((Plan.write writing).perform files tree).report.exit = 0 := by
  rcases Plan.exit_perform_write files writing tree with ⟨_, exit⟩ | ⟨fault, failed, _⟩
  · exact exit
  · rw [done] at failed
    cases failed

/-- To check a table ends like the whole plan, if the table can be
written. -/
theorem Options.exit_planTable_check (options : Options) {tree : Tree} (table : SignatureTable)
    (warnings : Nat) (log : List LogLine)
    (writes : options.denyWarnings = false ∨ warnings = 0 →
      (files.write tree options.outputPath (table.render options.layout).toUTF8).result = .ok ()) :
    (({ options with check := true }.planTable table warnings log).perform files tree).report.exit
      = ((options.planTable table warnings log).perform files tree).report.exit := by
  unfold planTable
  dsimp only
  split
  · rfl
  · rename_i admitted
    cases options.check with
    | true => rfl
    | false =>
      have done := writes (by simpa [Decidable.imp_iff_not_or] using admitted)
      exact (Plan.exit_perform_write_ok done).symm

/-- And so it does from the input on. -/
theorem Options.exit_check (options : Options) (input : Except FileError String) (timestamp : Nat)
    {tree : Tree}
    (writes : ∀ table, options.Builds timestamp input table →
      (files.write tree options.outputPath (table.render options.layout).toUTF8).result = .ok ()) :
    (({ options with check := true }.plan input timestamp).perform files tree).report.exit
      = ((options.plan input timestamp).perform files tree).report.exit := by
  cases input with
  | error fault => rfl
  | ok source =>
    unfold plan planSource
    dsimp only
    rcases built : Workspace.build {} source timestamp with ⟨failure | table, workspace⟩
    · rfl
    · exact options.exit_planTable_check table _ _ fun admitted =>
        writes table (.intro built admitted)

/-! ## Runs -/

/-- What a run must come to for a file to be opened for writing: it is
asked for more than a check, a table is built from its input, and the
output path leads to a place that can be opened. -/
structure Writes (reader : ArgumentReader) (files : FileSystem Tree Place)
    (arguments : List String) (environment : Environment) (tree : Tree) (timestamp : Nat)
    (options : Options) (table : SignatureTable) (place : Place) (opened : Tree) : Prop where
  asked : reader arguments environment = .ok (.run options)
  writes : options.check = false
  built : options.Builds timestamp (files.readText tree options.inputPath) table
  opens : files.create tree options.outputPath = (.ok place, opened)

variable {reader : ArgumentReader} {arguments : List String} {environment : Environment}
  {tree : Tree} {timestamp : Nat}

/-- The ending of a run, but for what is shown of its log. -/
theorem runOn_of_asked {options : Options}
    (asked : reader arguments environment = .ok (.run options)) (files : FileSystem Tree Place)
    (tree : Tree) (timestamp : Nat) :
    (runOn reader files arguments environment tree timestamp).tree
        = ((options.plan (files.readText tree options.inputPath) timestamp).perform
            files tree).tree ∧
      (runOn reader files arguments environment tree timestamp).report.exit
        = ((options.plan (files.readText tree options.inputPath) timestamp).perform
            files tree).report.exit := by
  unfold runOn
  rw [asked]
  exact ⟨rfl, rfl⟩

/-- A run that is asked for something else leaves the files alone. -/
theorem tree_runOn_of_not_asked
    (other : ∀ options, reader arguments environment ≠ .ok (.run options)) (tree : Tree)
    (timestamp : Nat) :
    (runOn reader files arguments environment tree timestamp).tree = tree := by
  unfold runOn
  cases asked : reader arguments environment with
  | error fault => rfl
  | ok request =>
    cases request with
    | run options => exact absurd asked (other options)
    | help => rfl
    | version => rfl

/-- A run that writes leaves what the write of its table leaves, and ends
as that does. -/
theorem Writes.ending {options : Options} {table : SignatureTable} {place : Place} {opened : Tree}
    (writes : Writes reader files arguments environment tree timestamp options table place
      opened) :
    (runOn reader files arguments environment tree timestamp).tree
        = (files.write tree options.outputPath (table.render options.layout).toUTF8).tree ∧
      ((files.write tree options.outputPath (table.render options.layout).toUTF8).result = .ok () ∧
          (runOn reader files arguments environment tree timestamp).report.exit = 0 ∨
        ∃ fault,
          (files.write tree options.outputPath (table.render options.layout).toUTF8).result
            = .error fault ∧
          (runOn reader files arguments environment tree timestamp).report.exit = 1) := by
  obtain ⟨after, exit⟩ := runOn_of_asked writes.asked files tree timestamp
  obtain ⟨log, success, planned⟩ := Options.plan_eq_write_iff.mpr
    ⟨writes.writes, rfl, table, writes.built, rfl⟩
  rw [after, exit, planned]
  exact ⟨rfl, Plan.exit_perform_write files ⟨_, _, log, success⟩ tree⟩

/-- A run that does not write changes no file. It may still have tried to
open its output path. -/
theorem content?_runOn_of_not_writes (lawful : files.Lawful)
    (none : ¬ ∃ options table place opened,
      Writes reader files arguments environment tree timestamp options table place opened) :
    files.content? (runOn reader files arguments environment tree timestamp).tree
      = files.content? tree := by
  by_cases request : ∃ options, reader arguments environment = .ok (.run options)
  · obtain ⟨options, asked⟩ := request
    rw [(runOn_of_asked asked files tree timestamp).1]
    cases planned : options.plan (files.readText tree options.inputPath) timestamp with
    | stop report => rfl
    | write writing =>
      obtain ⟨path, text, log, success⟩ := writing
      obtain ⟨writes, rfl, table, built, rfl⟩ :=
        Options.plan_eq_write_iff.mp ⟨log, success, planned⟩
      rcases FileSystem.write_cases lawful tree options.outputPath
          (table.render options.layout).toUTF8 with ⟨_, still, _⟩ | ⟨place, opened, opens, _⟩
      · exact still
      · exact absurd ⟨options, table, place, opened, asked, writes, built, opens⟩ none
  · rw [tree_runOn_of_not_asked (fun options asked => request ⟨options, asked⟩) tree timestamp]

/-- With `--check` in front, the exit is that of a run that can write its
table. -/
theorem exit_runOn_check (lawful : reader.Lawful) (lacks : asksToCheck arguments = false)
    (writes : ∀ options table, reader arguments environment = .ok (.run options) →
      options.Builds timestamp (files.readText tree options.inputPath) table →
      (files.write tree options.outputPath (table.render options.layout).toUTF8).result = .ok ()) :
    (runOn reader files ("--check" :: arguments) environment tree timestamp).report.exit
      = (runOn reader files arguments environment tree timestamp).report.exit := by
  cases asked : reader arguments environment with
  | error fault =>
    obtain ⟨other, checked⟩ := lawful.check_error lacks asked
    unfold runOn
    rw [asked, checked]
    rfl
  | ok request =>
    have checked := lawful.check_ok lacks asked
    cases request with
    | run options =>
      rw [(runOn_of_asked checked files tree timestamp).2,
        (runOn_of_asked asked files tree timestamp).2]
      exact options.exit_check _ timestamp fun table => writes options table asked
    | help =>
      unfold runOn
      rw [asked, checked]
      rfl
    | version =>
      unfold runOn
      rw [asked, checked]
      rfl

/-- A run that writes changes at most the file that its output path leads
to. It ends with 0, and that file is the table, or there was a fault in
putting the table there, and it ends with 1. A run that does not write
changes nothing. To ask for a check only, in front of arguments that do
not, leaves the exit as it is if the table can be written. -/
theorem run_changes (reads : reader.Lawful) (lawful : files.Lawful) (arguments : List String)
    (environment : Environment) (tree : Tree) (timestamp : Nat) :
    ((∃ options table place opened,
        Writes reader files arguments environment tree timestamp options table place opened ∧
        (∀ other, other ≠ place →
          files.content? (runOn reader files arguments environment tree timestamp).tree other
            = files.content? tree other) ∧
        files.place? (runOn reader files arguments environment tree timestamp).tree
            options.outputPath = some place ∧
        ((files.writeAll opened place (table.render options.layout).toUTF8).1 = .ok () ∧
            (runOn reader files arguments environment tree timestamp).report.exit = 0 ∧
            ((files.content? opened place).isSome →
              files.content? (runOn reader files arguments environment tree timestamp).tree place
                = some (table.render options.layout).toUTF8) ∨
          ∃ fault,
            (files.writeAll opened place (table.render options.layout).toUTF8).1 = .error fault ∧
            (runOn reader files arguments environment tree timestamp).report.exit = 1)) ∨
      (¬ ∃ options table place opened,
        Writes reader files arguments environment tree timestamp options table place opened) ∧
        files.content? (runOn reader files arguments environment tree timestamp).tree
          = files.content? tree) ∧
    (asksToCheck arguments = false →
      (∀ options table, reader arguments environment = .ok (.run options) →
        options.Builds timestamp (files.readText tree options.inputPath) table →
        (files.write tree options.outputPath (table.render options.layout).toUTF8).result
          = .ok ()) →
      (runOn reader files ("--check" :: arguments) environment tree timestamp).report.exit
        = (runOn reader files arguments environment tree timestamp).report.exit) := by
  refine ⟨?_, exit_runOn_check reads⟩
  by_cases writing : ∃ options table place opened,
      Writes reader files arguments environment tree timestamp options table place opened
  · obtain ⟨options, table, place, opened, writes⟩ := writing
    obtain ⟨after, ends⟩ := writes.ending
    left
    refine ⟨options, table, place, opened, writes, ?_⟩
    rw [after]
    rcases FileSystem.write_cases lawful tree options.outputPath
        (table.render options.layout).toUTF8 with
      ⟨shut, _, _⟩ | ⟨there, start, opens, others, leads, all⟩
    · exact absurd writes.opens (shut place opened)
    · obtain ⟨rfl, rfl⟩ : there = place ∧ start = opened := by
        simpa [writes.opens, eq_comm] using opens
      refine ⟨others, leads, ?_⟩
      rw [FileSystem.write_of_create writes.opens] at ends all ⊢
      rcases ends with ⟨done, exit⟩ | ⟨fault, failed, exit⟩
      · exact .inl ⟨done, exit, all done⟩
      · exact .inr ⟨fault, failed, exit⟩
  · exact .inr ⟨writing, content?_runOn_of_not_writes lawful writing⟩

end

/-- A small source, in a directory of its own. -/
def haltSource : String :=
  "<parser>\nPacket[Halt]:0a\nid:$2\n</parser>\n"

def haltTree : FileTree :=
  FileTree.put {} ⟨["parser.txt"], haltSource.toUTF8⟩

/-- The place of the table, if nothing else is asked for. -/
def haltPlace : Path :=
  ["_pkts.v5.ignore.json"]

/-- There is room there for any table. -/
theorem write_haltTree (bytes : ByteArray) :
    (FileTree.fileSystem.write haltTree "./_pkts.v5.ignore.json" bytes).result = .ok () := by
  rfl

theorem builds_halt :
    ∃ table, ({ pretty := true } : Options).Builds 7
      (FileTree.fileSystem.readText haltTree "./parser.txt") table := by
  have source : FileTree.fileSystem.readText haltTree "./parser.txt" = .ok haltSource := by
    exact FileTree.textOf_toUTF8 haltSource
  have succeeds : (Workspace.build {} haltSource 7).1.isOk = true := by decide +kernel
  have quiet : (Workspace.build {} haltSource 7).2.journal.warningCount = 0 := by decide +kernel
  rw [source]
  rcases built : Workspace.build {} haltSource 7 with ⟨failure | table, workspace⟩
  · rw [built] at succeeds
    cases succeeds
  · rw [built] at quiet
    exact ⟨table, .intro built (.inr quiet)⟩

/-- The table of the small source is written, and a check of it ends as
well as that. -/
theorem run_changes_halt :
    asksToCheck ["--pretty"] = false ∧
    (run ["--pretty"] {} haltTree 7).report.exit = 0 ∧
    (∃ table : SignatureTable,
      FileTree.fileSystem.content? (run ["--pretty"] {} haltTree 7).tree haltPlace
          = some (table.render .indented).toUTF8 ∧
        FileTree.fileSystem.readText (run ["--pretty"] {} haltTree 7).tree
            "./_pkts.v5.ignore.json" = .ok (table.render .indented)) ∧
    (run ["--check", "--pretty"] {} haltTree 7).report.exit = 0 := by
  have lacks : asksToCheck ["--pretty"] = false := by decide
  have asked : Request.ofArguments ["--pretty"] {} = .ok (.run { pretty := true }) := by rfl
  obtain ⟨table, built⟩ := builds_halt
  have opens : FileTree.fileSystem.create haltTree "./_pkts.v5.ignore.json"
      = (.ok haltPlace, haltTree.put ⟨haltPlace, ByteArray.empty⟩) := by rfl
  obtain ⟨written, checked⟩ := run_changes Request.ofArguments_lawful FileTree.fileSystem_lawful
    ["--pretty"] {} haltTree 7
  rcases written with ⟨options, other, place, opened, writes, _, _, ends⟩ | ⟨none, _⟩
  · obtain rfl : { pretty := true } = options := by simpa [asked] using writes.asked
    obtain ⟨rfl, rfl⟩ : haltPlace = place ∧ haltTree.put ⟨haltPlace, ByteArray.empty⟩ = opened := by
      have same := opens.symm.trans writes.opens
      cases same
      exact ⟨rfl, rfl⟩
    have back : FileTree.fileSystem.readText (run ["--pretty"] {} haltTree 7).tree
        "./_pkts.v5.ignore.json" = .ok (other.render .indented) := by
      rw [run, writes.ending.1]
      exact FileTree.readText_write (write_haltTree _)
    rcases ends with ⟨_, exit, all⟩ | ⟨fault, failed, _⟩
    · refine ⟨lacks, exit, ⟨other, all rfl, back⟩, (checked lacks ?_).trans exit⟩
      intro options _ same _
      obtain rfl : { pretty := true } = options := by simpa [asked] using same
      exact write_haltTree _
    · cases failed
  · exact absurd ⟨_, table, _, _, asked, rfl, built, opens⟩ none

/-- The same, with room for a part of the table only. -/
def fullTree : FileTree :=
  { haltTree with room := [(haltPlace, 16)] }

/-- The same, beside the full device. -/
def deviceTree : FileTree :=
  haltTree.addDirectory ["dev"]

/-- The output path can be opened, and a check succeeds. But the run fails,
and leaves a part of the table in a file that was not there. So does a run
that writes to the full device, of which nothing is left. -/
theorem fails_with_output :
    (FileTree.fileSystem.content? fullTree haltPlace = none ∧
      (FileTree.fileSystem.create fullTree "./_pkts.v5.ignore.json").1.isOk = true ∧
      (run ["--check"] {} fullTree 7).report.exit = 0 ∧
      (run [] {} fullTree 7).report.exit = 1 ∧
      (FileTree.fileSystem.content? (run [] {} fullTree 7).tree haltPlace).map ByteArray.size
        = some 16) ∧
    (FileTree.fileSystem.create deviceTree "/dev/full").1.isOk = true ∧
    (run ["--check", "--output-file", "/dev/full"] {} deviceTree 7).report.exit = 0 ∧
    (run ["--output-file", "/dev/full"] {} deviceTree 7).report.exit = 1 := by
  refine ⟨⟨rfl, rfl, ?_, ?_, ?_⟩, rfl, ?_, ?_⟩
  · decide +kernel
  · decide +kernel
  · decide +kernel
  · decide +kernel
  · decide +kernel

end PacketLayout.CommandLine
