import SheetCompiler.CommandLine.Run

/-!
# The program

The outermost layer.  It takes a picture of the files that a command line names, lets
`CommandLine.run` work on it, prints what that prints and writes what it has written.
-/

namespace SheetCompiler

namespace Program

/-- The text of a location. -/
def locationText (location : Location) : String := "/" ++ "/".intercalate location

/-- Add what stands at a location to a picture. -/
def look (tree : FileTree) (location : Location) (readable : Bool) : IO FileTree := do
  let path := (← IO.currentDir) / locationText location
  if ← path.isDir then return tree.put location .directory
  if !(← path.pathExists) then return tree
  if !readable then return tree.put location (.file [])
  return tree.put location (.file (← IO.FS.readBinFile path).toList)

/-- Add everything below a directory to a picture.  Only workbooks are read. -/
partial def lookBelow (tree : FileTree) (location : Location) : IO FileTree := do
  let path := (← IO.currentDir) / locationText location
  if !(← path.isDir) then return tree
  let mut picture := tree
  for entry in ← path.readDir do
    let inner := location ++ [entry.fileName]
    picture ← look picture inner (WorkbookFormat.isSupported ⟨entry.fileName⟩)
    picture ← lookBelow picture inner
  return picture

/-- Add all that a path leads through to a picture, and its end. -/
def lookAlong (tree : FileTree) (path : FilePath) : IO (FileTree × Location) := do
  let mut picture := tree
  let mut location := tree.start path
  for step in FileTree.steps path do
    match step with
    | .stay => pure ()
    | .up => location := location.dropLast
    | .down name => location := location ++ [name]
    picture ← look picture location true
  return (picture, location)

/-- The directory in which a pattern begins to match. -/
def base (pattern : FilePath) : FilePath :=
  let front := pattern.text.toList.takeWhile fun c => c != '*' && c != '?' && c != '['
  let directory := (front.reverse.dropWhile fun c => c != FilePath.separator).reverse
  if directory.isEmpty then ⟨"."⟩ else ⟨String.ofList directory⟩

/-- Add an input and all that is below it to a picture. -/
def lookAtInput (tree : FileTree) (input : FilePath) : IO FileTree := do
  let (picture, location) ← lookAlong tree input
  if FilePattern.isPattern input && (picture.node? location).isNone then
    let (picture, location) ← lookAlong picture (base input)
    lookBelow picture location
  else lookBelow picture location

/-- The files that a command looks at besides its inputs. -/
def namedFiles : Command → List FilePath
  | .convert _ output reading _ _ _ => output.toList ++ reading.config.toList
  | .schema file reading | .query file _ reading => file :: reading.config.toList

/-- A picture of all that a command line may look at. -/
def picture (words : List String) : IO FileTree := do
  let start : FilePath := ⟨(← IO.currentDir).toString⟩
  let home := (FileTree.steps start).filterMap fun
    | .down name => some name
    | _ => none
  let tree : FileTree := { home := home }
  match Arguments.read words with
  | .ok ⟨some command, _, _⟩ =>
    let mut tree := tree
    for file in namedFiles command do
      tree := (← lookAlong tree file).1
    if let .convert inputs _ _ _ _ _ := command then
      for input in inputs do
        tree ← lookAtInput tree input
    return tree
  | _ => return tree

/-- Write what has changed between two pictures. -/
def save (before after : FileTree) : IO Unit := do
  for location in before.made after do
    IO.FS.createDirAll (locationText location)
  for (location, content) in before.written after do
    IO.FS.writeBinFile (locationText location) ⟨content.toArray⟩

/-- Print a line. -/
def print (started : Nat) : CommandLine.Printed → IO Unit
  | .text line => IO.println line
  | .elapsed => do IO.println s!"  Time elapsed: {(← IO.monoMsNow) - started}ms"

end Program

end SheetCompiler

open SheetCompiler in
/-- Run the command line. -/
def main (words : List String) : IO UInt32 := do
  let started ← IO.monoMsNow
  let tree ← Program.picture words
  let outcome := CommandLine.run tree words
  Program.save tree outcome.tree
  outcome.lines.forM (Program.print started)
  if let some line := outcome.ending.errorLine? then IO.eprintln line
  return outcome.ending.status.toUInt32
