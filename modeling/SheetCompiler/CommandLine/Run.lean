import SheetCompiler.Batch.Convert
import SheetCompiler.CommandLine.Arguments
import SheetCompiler.Settings.Load

/-!
# Running a command line

What a command line prints and leaves behind in a file tree.  `CommandLine.run` reads the words and
carries out the command:

* `convert` converts workbooks and sums up what was done, unless it is to be quiet;
* `schema` describes the header of every sheet of a workbook;
* `query` prints the values at a field path in all records of a workbook, one on each line.

A run ends with status 0, or with status 1 and a report when it failed, or with status 2 when the
words are no command line.
-/

namespace SheetCompiler

namespace CommandLine

/-! ## Outcomes -/

/-- A printed line. -/
inductive Printed where
  | text (line : String)
  /-- The line that says how long the run has taken. -/
  | elapsed
  deriving DecidableEq

/-- How a run ends. -/
inductive Ending where
  | success
  | failure (report : String)
  | usage (fault : UsageFault)
  deriving DecidableEq

/-- What a run prints and leaves behind, and how it ends. -/
structure Outcome where
  lines : List Printed
  ending : Ending
  tree : FileTree

/-- The status of an ending. -/
def Ending.status : Ending → Nat
  | success => 0
  | failure _ => 1
  | usage .help | usage .version => 0
  | usage _ => 2

/-- The line of a failure for the error output. -/
def Ending.errorLine? : Ending → Option String
  | failure report => some s!"Error: {report}"
  | _ => none

/-- The name and version of the program. -/
def versionLine : String := "sheet-records 0.1.0"

/-- A short description of the command line. -/
def usageLines : List String :=
  ["Usage: sheet-records [-v | -q] <COMMAND>",
    "",
    "Commands:",
    "  convert [OPTIONS] <INPUT>...    Convert workbooks into <stem>.records.json files",
    "  schema [OPTIONS] <FILE>         Print the header schema of every sheet",
    "  query [OPTIONS] <FILE> <PATH>   Print every value found at a dotted path",
    "",
    "Reading:",
    "      --config <FILE>      Settings in JSON",
    "      --strict             Leave out columns with bad identifiers or types",
    "      --case-sensitive     Let letter case matter",
    "      --keyword <KEYWORD>  A further header keyword, may be repeated",
    "",
    "Converting:",
    "  -o, --output <DIR>       The directory of all outputs",
    "      --pretty             Write outputs on many lines",
    "  -j, --jobs <N>           How many workbooks are converted at a time",
    "      --fail-fast          Stop at the first failure"]

/-- A run that printed texts. -/
def printed (lines : List String) (ending : Ending) (tree : FileTree) : Outcome :=
  ⟨lines.map .text, ending, tree⟩

/-- A run that failed after printing. -/
def failed (lines : List Printed) (fault : Fault) (tree : FileTree) : Outcome :=
  ⟨lines, .failure fault.report, tree⟩

/-! ## Settings and arguments -/

/-- The settings of a command: those of its file, or the usual ones, changed by its switches. -/
def settingsOf (tree : FileTree) (reading : ReadingArguments) : Except Fault Settings :=
  let base : Except Fault Settings :=
    match reading.config with
    | some path => Settings.load tree path
    | none => .ok {}
  match base with
  | .error fault => .error fault
  | .ok settings =>
    Settings.checked { settings with
      strict := settings.strict || reading.strict
      caseSensitive := settings.caseSensitive || reading.caseSensitive
      customKeywords := settings.customKeywords ++ reading.keywords }

/-- The rules of a command. -/
def rulesOf (tree : FileTree) (reading : ReadingArguments) : Except Fault Rules :=
  match settingsOf tree reading with
  | .error fault => .error fault
  | .ok settings =>
    match Rules.ofSettings settings with
    | .error fault => .error (.settings fault)
    | .ok rules => .ok rules

/-- The options of a batch. -/
def optionsOf (tree : FileTree) (reading : ReadingArguments) (pretty : Bool) (jobs : Option Nat)
    (failFast : Bool) : Except Fault BatchOptions :=
  match settingsOf tree reading with
  | .error fault => .error fault
  | .ok settings =>
    let options : BatchOptions := { settings := settings, pretty := pretty, failFast := failFast }
    .ok (match jobs with
      | some n => options.withJobs n
      | none => options)

/-- Whether the number of jobs and the output directory can be used. -/
def checkConvert (tree : FileTree) (output : Option FilePath) (jobs : Option Nat) :
    Except Fault Unit :=
  if jobs = some 0 then .error .noJobs
  else
    match output with
    | some directory =>
      if tree.exists? directory && !tree.isDirectory directory then
        .error (.outputNotDirectory directory)
      else .ok ()
    | none => .ok ()

/-! ## Converting -/

/-- The summary of a batch. -/
def summaryLines (tally : Tally) : List Printed :=
  [.text "", .text "Conversion Summary", .elapsed,
    .text s!"  Files processed: {tally.filesProcessed}"] ++
  (if tally.filesFailed = 0 then [] else [.text s!"  Files failed: {tally.filesFailed}"]) ++
  [.text s!"  Sheets parsed: {tally.sheetsParsed}"] ++
  (if tally.sheetsFailed = 0 then [] else [.text s!"  Sheets failed: {tally.sheetsFailed}"]) ++
  [.text s!"  Total records: {tally.records}"]

/-- What a batch prints. -/
def batchLines (outcome : BatchOutcome) : List Printed :=
  let found :=
    match outcome.found with
    | some count => [.text s!"  Found {count} workbook files"]
    | none => []
  let summary :=
    match outcome.found, outcome.result with
    | some (_ + 1), .ok summary => summaryLines summary.tally
    | _, _ => []
  .text "Starting workbook conversion" :: (found ++ summary)

/-- The report of a batch that converted nothing. -/
def nothingConverted : String := "No workbook could be converted"

/-- Convert workbooks. -/
def convert (tree : FileTree) (batch : Batch) (progress : Bool) : Outcome :=
  let outcome := batch.run tree
  let lines := if progress then batchLines outcome else []
  match outcome.result with
  | .error fault => failed lines fault outcome.tree
  | .ok summary =>
    if summary.tally.filesProcessed = 0 ∧ summary.tally.filesFailed ≠ 0 then
      ⟨lines, .failure nothingConverted, outcome.tree⟩
    else ⟨lines, .success, outcome.tree⟩

/-! ## Describing schemas -/

/-- A number in four places or more. -/
def inFourPlaces (n : Nat) : String :=
  let digits := Nat.toDigits 10 n
  String.ofList (List.replicate (4 - digits.length) ' ' ++ digits)

/-- Texts under a title, if there are any. -/
def entryLines (title : String) (entries : Entries String) : List String :=
  if entries.isEmpty then []
  else s!"  {title}:" :: entries.map fun entry => s!"    {entry.1} = {entry.2}"

/-- The description of a schema. -/
def schemaLines (schema : Schema) : List String :=
  [s!"  Header rows: {schema.headerRows} (data starts at row {schema.dataStart})", "  Columns:"] ++
  (schema.columns.map fun column =>
    let types := " / ".intercalate column.types
    s!"    {inFourPlaces column.index}  {column.path}  {types}") ++
  ["  Types:"] ++ (schema.types.map fun entry => s!"    {entry.1} = {entry.2}") ++
  entryLines "Defaults" schema.fallbacks ++ entryLines "Metadata" schema.metadata

/-- The description of a sheet. -/
def sheetLines (rules : Rules) (grid : Grid) : List String :=
  ["", s!"Sheet {grid.name}"] ++
    match Schema.ofSheet rules grid.worksheet with
    | .ok schema => schemaLines schema
    | .error fault => [s!"  Skipped: {fault.message}"]

/-- The report of a workbook that could not be loaded. -/
def loadReport (file : FilePath) (fault : Fault) : String :=
  s!"Failed to load {file.text}: {fault.report}"

/-- Describe the schemas of a workbook. -/
def schema (tree : FileTree) (file : FilePath) (rules : Rules) : Outcome :=
  match Workbook.load tree file with
  | .error fault => ⟨[], .failure (loadReport file fault), tree⟩
  | .ok grids =>
    printed (s!"Workbook: {file.text}" :: grids.flatMap (sheetLines rules)) .success tree

/-! ## Queries -/

/-- The values at a field path in all records of a sheet. -/
def matchesIn (sheet : CompiledSheet) (path : String) : List Value :=
  (Value.list (sheet.records.map .record)).query path

/-- Print the values at a field path in all records of a workbook. -/
def query (tree : FileTree) (file : FilePath) (path : String) (rules : Rules) : Outcome :=
  match Workbook.load tree file with
  | .error fault => ⟨[], .failure (loadReport file fault), tree⟩
  | .ok grids =>
    let workbook := CompiledWorkbook.ofSheets rules (grids.map Grid.worksheet)
    printed (workbook.sheets.flatMap fun sheet =>
      (matchesIn sheet path).map fun value => value.toJson.compact) .success tree

/-! ## Commands -/

/-- Carry out a command. -/
def perform (tree : FileTree) (progress : Bool) : Command → Outcome
  | .convert inputs output reading pretty jobs failFast =>
    match checkConvert tree output jobs with
    | .error fault => failed [] fault tree
    | .ok () =>
      match optionsOf tree reading pretty jobs failFast with
      | .error fault => failed [] fault tree
      | .ok options =>
        match Batch.ofOptions inputs output options with
        | .error fault => failed [] fault tree
        | .ok batch => convert tree batch progress
  | .schema file reading =>
    match rulesOf tree reading with
    | .error fault => failed [] fault tree
    | .ok rules => schema tree file rules
  | .query file path reading =>
    match rulesOf tree reading with
    | .error fault => failed [] fault tree
    | .ok rules => query tree file path rules

/-- Carry out what was read of a command line. -/
def carryOut (tree : FileTree) : Except UsageFault Arguments → Outcome
  | .error .version => printed [versionLine] (.usage .version) tree
  | .error .help => printed usageLines (.usage .help) tree
  | .error fault => ⟨[], .usage fault, tree⟩
  | .ok arguments =>
    match arguments.command with
    | some command => perform tree arguments.showsProgress command
    | none => printed usageLines .success tree

/-- Run a command line. -/
def run (tree : FileTree) (words : List String) : Outcome := carryOut tree (Arguments.read words)

end CommandLine

end SheetCompiler
