import SheetCompiler.Fault
import SheetCompiler.Workbook.Format

/-!
# Finding workbooks

An input names a file, a directory or a pattern.  A file is taken whatever it is; below a directory
and for a pattern only files that look like workbooks are taken.  All files together are put in
order, each of them once.
-/

namespace SheetCompiler

namespace Discovery

/-- Whether a path is a file that looks like a workbook. -/
def isWorkbook (tree : FileTree) (path : FilePath) : Bool :=
  tree.isFile path && WorkbookFormat.isSupported path

/-- The workbooks below a directory. -/
def inDirectory (tree : FileTree) (directory : FilePath) : List FilePath :=
  (tree.below tree.depth directory).filter (isWorkbook tree)

/-- The workbooks that a pattern matches. -/
def ofPattern (tree : FileTree) (pattern : FilePath) : Except Fault (List FilePath) :=
  if !FilePattern.isPattern pattern then .error (.fileNotFound pattern)
  else
    match FilePattern.read pattern.text with
    | .error fault => .error (.inputPattern pattern fault)
    | .ok reading => .ok ((FilePattern.expand tree reading).filter (isWorkbook tree))

/-- The files of one input. -/
def ofInput (tree : FileTree) (input : FilePath) : Except Fault (List FilePath) :=
  if tree.isFile input then .ok [input]
  else if tree.isDirectory input then .ok (inDirectory tree input)
  else ofPattern tree input

/-- The files of all inputs, one input after another. -/
def collect (tree : FileTree) : List FilePath → Except Fault (List FilePath)
  | [] => .ok []
  | input :: rest =>
    match ofInput tree input with
    | .error fault => .error fault
    | .ok files =>
      match collect tree rest with
      | .error fault => .error fault
      | .ok others => .ok (files ++ others)

/-- The files of all inputs, in order. -/
def files (tree : FileTree) (inputs : List FilePath) : Except Fault (List FilePath) :=
  match collect tree inputs with
  | .error fault => .error fault
  | .ok found => .ok (FilePath.sorted found)

end Discovery

end SheetCompiler
