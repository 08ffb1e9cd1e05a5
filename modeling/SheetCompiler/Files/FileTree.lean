import SheetCompiler.Files.FilePath
import SheetCompiler.Text.Utf8

/-!
# File trees

A file tree holds the files and directories that a run may look at, and the directory where it
starts.  Every file and directory has a location, the names that lead to it from the root; paths are
looked up step by step, where a step up leaves a directory and every step but the last must arrive at
a directory.

Writing gives another tree.  `makeDirectories` makes a directory and all that are missing above it;
`write` makes or replaces a file in a directory that exists.  What has changed between two trees is
told by `written`.

There are no links in a tree, nor anything else that is neither a file nor a directory, and no
permissions: every directory can be listed and every file read and written.  So a run over a tree
fails for what is missing, in the way or no text (`FileFault`), and for nothing else that a system may
object to.
-/

namespace SheetCompiler

open Text (Bytes)

/-- The names that lead from the root to a file or directory. -/
abbrev Location := List String

/-- Why a file or directory could not be used. -/
inductive FileFault where
  | notFound
  | alreadyThere
  | notDirectory
  | isDirectory
  | notText
  deriving DecidableEq

namespace FileFault

/-- What is wrong. -/
def message : FileFault → String
  | notFound => "No such file or directory (os error 2)"
  | alreadyThere => "File exists (os error 17)"
  | notDirectory => "Not a directory (os error 20)"
  | isDirectory => "Is a directory (os error 21)"
  | notText => "stream did not contain valid UTF-8"

end FileFault

/-- What stands at a location. -/
inductive FileNode where
  | directory
  | file (content : Bytes)
  deriving DecidableEq

/-- Files and directories, and where relative paths start. -/
structure FileTree where
  home : Location := []
  nodes : List (Location × FileNode) := []
  deriving DecidableEq

namespace FileTree

/-! ## Locations -/

/-- What stands at a location.  The home directory and all above it are there. -/
def node? (tree : FileTree) (location : Location) : Option FileNode :=
  if location.isPrefixOf tree.home then some .directory
  else tree.nodes.lookup location

/-- Put a node at a location. -/
def set (location : Location) (node : FileNode) :
    List (Location × FileNode) → List (Location × FileNode)
  | [] => [(location, node)]
  | entry :: rest =>
    if entry.1 = location then (location, node) :: rest else entry :: set location node rest

/-- The tree with a node at a location. -/
def put (tree : FileTree) (location : Location) (node : FileNode) : FileTree :=
  { tree with nodes := set location node tree.nodes }

/-! ## Looking up paths -/

/-- A step of a lookup. -/
inductive Step where
  | stay
  | up
  | down (name : String)
  deriving DecidableEq

/-- The step of a piece of a path. -/
def stepOf (piece : List Char) : Step :=
  if piece = ['.'] then .stay else if piece = ['.', '.'] then .up else .down (String.ofList piece)

/-- The steps that the pieces of a path stand for. -/
def pieceSteps (path : FilePath) : List Step :=
  ((Text.cut FilePath.separator path.text.toList).filter fun piece => !piece.isEmpty).map stepOf

/-- The steps of a path.  A separator at the end stays at what must be a directory. -/
def steps (path : FilePath) : List Step :=
  pieceSteps path ++
    if path.text.toList.getLast? = some FilePath.separator then [.stay] else []

/-- Where the steps of a path start. -/
def start (tree : FileTree) (path : FilePath) : Location :=
  if path.isAbsolute then [] else tree.home

/-- Take one step from a location. -/
def step (tree : FileTree) (location : Location) (next : Step) : Except FileFault Location :=
  match tree.node? location with
  | none => .error .notFound
  | some (.file _) => .error .notDirectory
  | some .directory =>
    match next with
    | .stay => .ok location
    | .up => .ok location.dropLast
    | .down name => .ok (location ++ [name])

/-- Take steps one after another; the last one may lead to where nothing is. -/
def walk (tree : FileTree) (location : Location) (steps : List Step) :
    Except FileFault Location :=
  steps.foldlM (tree.step) location

/-- The location of a path and what stands there. -/
def find (tree : FileTree) (path : FilePath) : Except FileFault (Location × FileNode) :=
  if path.text.isEmpty then .error .notFound
  else
    match tree.walk (tree.start path) (steps path) with
    | .error fault => .error fault
    | .ok location =>
      match tree.node? location with
      | some node => .ok (location, node)
      | none => .error .notFound

/-- Whether there is something at a path. -/
def exists? (tree : FileTree) (path : FilePath) : Bool :=
  match tree.find path with
  | .ok _ => true
  | .error _ => false

/-- Whether there is a file at a path. -/
def isFile (tree : FileTree) (path : FilePath) : Bool :=
  match tree.find path with
  | .ok (_, .file _) => true
  | _ => false

/-- Whether there is a directory at a path. -/
def isDirectory (tree : FileTree) (path : FilePath) : Bool :=
  match tree.find path with
  | .ok (_, .directory) => true
  | _ => false

/-- The content of the file at a path. -/
def read (tree : FileTree) (path : FilePath) : Except FileFault Bytes :=
  match tree.find path with
  | .error fault => .error fault
  | .ok (_, .directory) => .error .isDirectory
  | .ok (_, .file content) => .ok content

/-- The text of the file at a path. -/
def readText (tree : FileTree) (path : FilePath) : Except FileFault String :=
  match tree.read path with
  | .error fault => .error fault
  | .ok content =>
    match Text.Utf8.toString? content with
    | some text => .ok text
    | none => .error .notText

/-! ## Listing directories -/

/-- Whether a location is directly below another one. -/
def isChild (parent location : Location) : Bool :=
  location.length == parent.length + 1 && parent.isPrefixOf location

/-- The names in the directory at a location: those of nodes, and the way to the home directory. -/
def namesAt (tree : FileTree) (location : Location) : List String :=
  let listed := (tree.nodes.map Prod.fst).filterMap fun inner =>
    if isChild location inner then inner.getLast? else none
  if location.isPrefixOf tree.home then
    match tree.home.drop location.length with
    | name :: _ => if listed.contains name then listed else name :: listed
    | [] => listed
  else listed

/-- The names in the directory at a path; what is no directory has none. -/
def names (tree : FileTree) (path : FilePath) : List String :=
  match tree.find path with
  | .ok (location, .directory) => tree.namesAt location
  | _ => []

/-- All files and directories below the directory at a path, each before what is below it, down to a
number of levels. -/
def below (tree : FileTree) : (levels : Nat) → FilePath → List FilePath
  | 0, _ => []
  | levels + 1, path =>
    (tree.names path).flatMap fun name =>
      let inner := path.join ⟨name⟩
      inner :: tree.below levels inner

/-- As many levels as a tree can have. -/
def depth (tree : FileTree) : Nat :=
  (tree.home :: tree.nodes.map Prod.fst).foldl (fun deepest location => max deepest location.length) 0

/-! ## Writing -/

/-- Make the directory at a path, in one that exists. -/
def makeDirectory (tree : FileTree) (path : FilePath) : Except FileFault FileTree :=
  if path.text.isEmpty then .error .notFound
  else
    match tree.walk (tree.start path) (pieceSteps path) with
    | .error fault => .error fault
    | .ok location =>
      if (tree.node? location).isSome then .error .alreadyThere
      else .ok (tree.put location .directory)

/-- Make the directory at a path, unless there is one already. -/
def ensureDirectory (tree : FileTree) (path : FilePath) : Except FileFault FileTree :=
  match tree.makeDirectory path with
  | .ok tree => .ok tree
  | .error fault => if tree.isDirectory path then .ok tree else .error fault

/-- Make the directory at a path and what is missing above it, for at most a number of levels. -/
def makeLevels : (levels : Nat) → FilePath → FileTree → Except FileFault FileTree
  | 0, _, _ => .error .notFound
  | levels + 1, path, tree =>
    if path.text.isEmpty then .ok tree
    else
      match tree.ensureDirectory path, path.parent? with
      | .error .notFound, some above =>
        match makeLevels levels above tree with
        | .error fault => .error fault
        | .ok tree => tree.ensureDirectory path
      | outcome, _ => outcome

/-- Make the directory at a path and all that are missing above it. -/
def makeDirectories (tree : FileTree) (path : FilePath) : Except FileFault FileTree :=
  makeLevels (path.parts.length + 1) path tree

/-- Make or replace the file at a path. -/
def write (tree : FileTree) (path : FilePath) (content : Bytes) : Except FileFault FileTree :=
  if path.text.isEmpty then .error .notFound
  else
    match tree.walk (tree.start path) (steps path) with
    | .error fault => .error fault
    | .ok location =>
      match tree.node? location with
      | some .directory => .error .isDirectory
      | some (.file _) | none => .ok (tree.put location (.file content))

/-! ## Changes -/

/-- The files of a tree that another one does not hold in the same form. -/
def written (before after : FileTree) : List (Location × Bytes) :=
  after.nodes.filterMap fun entry =>
    match entry.2 with
    | .file content =>
      if before.node? entry.1 = some (.file content) then none else some (entry.1, content)
    | .directory => none

/-- The directories of a tree that another one does not hold. -/
def made (before after : FileTree) : List Location :=
  after.nodes.filterMap fun entry =>
    if entry.2 = .directory ∧ before.node? entry.1 ≠ some .directory then some entry.1 else none

theorem lookup_set_self (location : Location) (node : FileNode)
    (nodes : List (Location × FileNode)) :
    (set location node nodes).lookup location = some node := by
  induction nodes with
  | nil => exact List.lookup_cons_self
  | cons entry rest ih =>
    obtain ⟨place, kept⟩ := entry
    by_cases h : place = location
    · rw [set, if_pos h]
      exact List.lookup_cons_self
    · have hne : (location == place) = false := beq_false_of_ne (Ne.symm h)
      rw [set, if_neg h, List.lookup_cons, hne]
      exact ih

theorem lookup_set_of_ne {location other : Location} (h : other ≠ location) (node : FileNode)
    (nodes : List (Location × FileNode)) :
    (set location node nodes).lookup other = nodes.lookup other := by
  have hne : (other == location) = false := beq_false_of_ne h
  induction nodes with
  | nil => rw [set, List.lookup_cons, hne]
  | cons entry rest ih =>
    obtain ⟨place, kept⟩ := entry
    by_cases he : place = location
    · rw [set, if_pos he, List.lookup_cons, List.lookup_cons, he, hne]
    · rw [set, if_neg he, List.lookup_cons, List.lookup_cons, ih]

end FileTree

end SheetCompiler
