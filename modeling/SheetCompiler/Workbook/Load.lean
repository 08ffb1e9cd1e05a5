import SheetCompiler.Fault
import SheetCompiler.Workbook.Format
import SheetCompiler.Workbook.JsonBook

/-!
# Loading workbooks

The worksheets of a workbook file.  A file of comma-separated values is a workbook with one sheet,
which is named like the file.
-/

namespace SheetCompiler

namespace Workbook

/-- The name of a sheet when its file has none. -/
def unnamed : String := "Sheet1"

/-- The sheet of a file of comma-separated values. -/
def loadCsv (tree : FileTree) (path : FilePath) : Except Fault (List Grid) :=
  match tree.read path with
  | .error fault => .error (.csv path (.file fault))
  | .ok content =>
    match Csv.read (path.stem?.getD unnamed) content with
    | .error fault => .error (.csv path (.text fault))
    | .ok grid => .ok [grid]

/-- The sheets of a file in JSON. -/
def loadJson (tree : FileTree) (path : FilePath) : Except Fault (List Grid) :=
  match tree.read path with
  | .error _ => .error (.json path .unreadable)
  | .ok content =>
    match JsonBook.read content with
    | .error flaw => .error (.json path flaw)
    | .ok grids => .ok grids

/-- The sheets of a workbook file, in order. -/
def load (tree : FileTree) (path : FilePath) : Except Fault (List Grid) :=
  if !tree.exists? path then .error (.fileNotFound path)
  else
    match WorkbookFormat.ofPath? path with
    | some .csv => loadCsv tree path
    | some .json => loadJson tree path
    | none => .error (.unsupportedFormat path)

end Workbook

end SheetCompiler
