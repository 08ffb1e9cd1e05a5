import SheetCompiler.Batch.Discovery
import SheetCompiler.Batch.Options
import SheetCompiler.Batch.Plan
import SheetCompiler.Compiled.Workbook
import SheetCompiler.Json.Layout
import SheetCompiler.Workbook.Load

/-!
# Converting workbooks

A batch finds its files, plans their outputs and converts them one after another.  A file that
cannot be converted is counted and the batch goes on, unless it is told to stop at the first failure.

* `Batch.prepare` reads and compiles one file, and `Batch.deliver` writes what it compiled to.
* `Batch.convertAll` converts the files of a plan and adds up a `Tally`.
* `Batch.run` is the whole batch; it gives the file tree it leaves behind also when it fails.
-/

namespace SheetCompiler

/-- What a batch has done. -/
structure Tally where
  filesProcessed : Nat := 0
  filesFailed : Nat := 0
  sheetsParsed : Nat := 0
  sheetsFailed : Nat := 0
  records : Nat := 0
  deriving DecidableEq

namespace Tally

/-- Count a converted workbook. -/
def addWorkbook (tally : Tally) (workbook : CompiledWorkbook) : Tally :=
  { tally with
    filesProcessed := tally.filesProcessed + 1
    sheetsParsed := tally.sheetsParsed + workbook.sheets.length
    sheetsFailed := tally.sheetsFailed + workbook.failures.length
    records := tally.records + workbook.recordCount }

/-- Count a file that could not be converted. -/
def addFailure (tally : Tally) : Tally := { tally with filesFailed := tally.filesFailed + 1 }

end Tally

/-- What a batch is to convert, and how. -/
structure Batch where
  inputs : List FilePath
  /-- The directory of all outputs; without one they stand beside their inputs. -/
  output : Option FilePath
  rules : Rules
  pretty : Bool := false
  failFast : Bool := false

/-- What a batch has done, and where its outputs are. -/
structure Summary where
  tally : Tally
  directory : FilePath
  deriving DecidableEq

/-- What a batch has come to: the files it found, the tree it leaves and its summary or fault. -/
structure BatchOutcome where
  tree : FileTree
  found : Option Nat
  result : Except Fault Summary

namespace Batch

/-- The batch of some inputs with options. -/
def ofOptions (inputs : List FilePath) (output : Option FilePath) (options : BatchOptions) :
    Except Fault Batch :=
  match Rules.ofSettings options.settings with
  | .error fault => .error (.settings fault)
  | .ok rules => .ok ⟨inputs, output, rules, options.pretty, options.failFast⟩

/-- The output text of a compiled workbook. -/
def outputText (pretty : Bool) (workbook : CompiledWorkbook) : String :=
  let json := workbook.toValue.toJson
  if pretty then json.pretty else json.compact

/-- Read and compile a file. -/
def prepare (rules : Rules) (tree : FileTree) (input : FilePath) :
    Except Fault CompiledWorkbook :=
  match Workbook.load tree input with
  | .error fault => .error fault
  | .ok grids => .ok (CompiledWorkbook.ofSheets rules (grids.map Grid.worksheet))

/-- Write a compiled workbook. -/
def deliver (pretty : Bool) (tree : FileTree) (output : FilePath) (workbook : CompiledWorkbook) :
    Except Fault FileTree :=
  match tree.write output (Text.Utf8.ofString (outputText pretty workbook)) with
  | .error fault => .error (.file fault)
  | .ok tree => .ok tree

/-- Convert a file. -/
def convert (batch : Batch) (tree : FileTree) (assignment : Assignment) :
    Except Fault (CompiledWorkbook × FileTree) :=
  match prepare batch.rules tree assignment.input with
  | .error fault => .error fault
  | .ok workbook =>
    match deliver batch.pretty tree assignment.output workbook with
    | .error fault => .error fault
    | .ok tree => .ok (workbook, tree)

/-- Convert the files of a plan, in order. -/
def convertAll (batch : Batch) (tally : Tally) (tree : FileTree) :
    List Assignment → FileTree × Except Fault Tally
  | [] => (tree, .ok tally)
  | assignment :: rest =>
    match batch.convert tree assignment with
    | .ok (workbook, tree) => batch.convertAll (tally.addWorkbook workbook) tree rest
    | .error fault =>
      if batch.failFast then (tree, .error fault)
      else batch.convertAll tally.addFailure tree rest

/-- Make the output directory, if there is one. -/
def makeOutput (batch : Batch) (tree : FileTree) : Except Fault FileTree :=
  match batch.output with
  | none => .ok tree
  | some directory =>
    match tree.makeDirectories directory with
    | .error fault => .error (.file fault)
    | .ok tree => .ok tree

/-- Where the outputs of files are: the output directory, or the deepest one with all files. -/
def outputDirectory (batch : Batch) (files : List FilePath) : FilePath :=
  batch.output.getD (FilePath.commonDirectory files)

/-- Convert the files that were found. -/
def convertFound (batch : Batch) (tree : FileTree) (files : List FilePath) :
    FileTree × Except Fault Summary :=
  let directory := batch.outputDirectory files
  if files.isEmpty then (tree, .ok ⟨{}, directory⟩)
  else
    match batch.makeOutput tree with
    | .error fault => (tree, .error fault)
    | .ok tree =>
      match batch.convertAll {} tree (Plan.outputs batch.output files) with
      | (tree, .ok tally) => (tree, .ok ⟨tally, directory⟩)
      | (tree, .error fault) => (tree, .error fault)

/-- Run a batch. -/
def run (batch : Batch) (tree : FileTree) : BatchOutcome :=
  match Discovery.files tree batch.inputs with
  | .error fault => ⟨tree, none, .error fault⟩
  | .ok files =>
    let (after, result) := batch.convertFound tree files
    ⟨after, some files.length, result⟩

end Batch

end SheetCompiler
