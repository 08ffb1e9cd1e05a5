import SheetCompiler.Text.Cut

/-!
# File paths

A path is kept as it is written, and read as its parts: the root, the directory it starts from when
that is spelled out, the way up, and names.  Repeated separators and dots between names are no parts,
so paths may be written differently and have the same parts; paths are compared and ordered by their
parts (`FilePath.same`, `FilePath.compare`).

`parent?` leaves out the last part and keeps the writing of the others; `stem?` and `extension?` cut
the last name at its last dot, unless that dot opens the name.

A path is a text of Unicode characters.  Names of files are bytes to the system, and those that are no
text in UTF-8 have no path here.
-/

namespace SheetCompiler

/-- A path of a file or a directory. -/
structure FilePath where
  text : String
  deriving DecidableEq, Inhabited

namespace FilePath

/-- The character between the parts of a path. -/
def separator : Char := '/'

/-- A part of a path. -/
inductive Part where
  | root
  | here
  | up
  | name (text : String)
  deriving DecidableEq

/-! ## Parts -/

/-- The first part when it is no name, and what follows it. -/
def opening : List Char → Option Part × List Char
  | '/' :: rest => (some .root, rest)
  | ['.'] => (some .here, [])
  | '.' :: '/' :: rest => (some .here, '/' :: rest)
  | chars => (none, chars)

/-- Whether a piece between separators is no part. -/
def isIdle (piece : List Char) : Bool := piece.isEmpty || piece == ['.']

/-- The part that a piece stands for. -/
def partOf (piece : List Char) : Part :=
  if piece = ['.', '.'] then .up else .name (String.ofList piece)

/-- The parts of a path. -/
def parts (path : FilePath) : List Part :=
  let (first, body) := opening path.text.toList
  first.toList ++ ((Text.cut separator body).filter fun piece => !isIdle piece).map partOf

/-- Whether two paths have the same parts. -/
def same (path other : FilePath) : Bool := path.parts == other.parts

/-- Whether the parts of a path begin with those of another one. -/
def startsWith (path front : FilePath) : Bool := front.parts.isPrefixOf path.parts

/-- Whether a path starts at the root. -/
def isAbsolute (path : FilePath) : Bool := path.text.toList.head? == some separator

/-! ## Parents and names -/

/-- Leave out idle pieces from the end. -/
def dropIdleEnd (pieces : List (List Char)) : List (List Char) :=
  (pieces.reverse.dropWhile isIdle).reverse

/-- The path without its last part; the root and the empty path have none to leave out. -/
def parent? (path : FilePath) : Option FilePath :=
  let chars := path.text.toList
  let (first, body) := opening chars
  match dropIdleEnd (Text.cut separator body) with
  | [] => if first = some .here then some ⟨""⟩ else none
  | pieces =>
    let front := chars.take (chars.length - body.length)
    some ⟨String.ofList (front ++ Text.glue separator (dropIdleEnd pieces.dropLast))⟩

/-- The name at the end of a path. -/
def name? (path : FilePath) : Option String :=
  match path.parts.getLast? with
  | some (.name text) => some text
  | _ => none

/-- A name up to its last dot, and what follows the dot.  A dot at the front does not count. -/
def cutName (name : List Char) : List Char × Option (List Char) :=
  let backwards := name.reverse
  match backwards.dropWhile fun c => c != '.' with
  | [] => (name, none)
  | [_] => (name, none)
  | _ :: stem => (stem.reverse, some (backwards.takeWhile fun c => c != '.').reverse)

/-- The last name without its extension. -/
def stem? (path : FilePath) : Option String :=
  path.name?.map fun name => String.ofList (cutName name.toList).1

/-- The extension of the last name. -/
def extension? (path : FilePath) : Option String :=
  path.name?.bind fun name => (cutName name.toList).2.map String.ofList

/-- A path below a directory; an absolute path stays as it is. -/
def join (directory path : FilePath) : FilePath :=
  if path.isAbsolute ∨ directory.text.isEmpty then path
  else if directory.text.toList.getLast? = some separator then ⟨directory.text ++ path.text⟩
  else ⟨directory.text ++ separator.toString ++ path.text⟩

/-! ## Order -/

/-- Characters in the order of their code points. -/
def compareChars : List Char → List Char → Ordering
  | [], [] => .eq
  | [], _ :: _ => .lt
  | _ :: _, [] => .gt
  | c :: rest, d :: others =>
    if c.toNat < d.toNat then .lt else if d.toNat < c.toNat then .gt else compareChars rest others

/-- The kinds of parts, in order. -/
def Part.rank : Part → Nat
  | root => 0
  | here => 1
  | up => 2
  | name _ => 3

/-- Parts by kind, and names by their characters. -/
def Part.compare : Part → Part → Ordering
  | name text, name other => compareChars text.toList other.toList
  | part, other => Ord.compare part.rank other.rank

/-- Lists of parts, by their first difference. -/
def compareParts : List Part → List Part → Ordering
  | [], [] => .eq
  | [], _ :: _ => .lt
  | _ :: _, [] => .gt
  | part :: rest, other :: others =>
    match part.compare other with
    | .eq => compareParts rest others
    | order => order

/-- The order of paths. -/
def compare (path other : FilePath) : Ordering := compareParts path.parts other.parts

/-- Add a path to an ordered list, unless it holds one with the same parts. -/
def insert (path : FilePath) : List FilePath → List FilePath
  | [] => [path]
  | other :: rest =>
    match compare path other with
    | .lt => path :: other :: rest
    | .eq => other :: rest
    | .gt => other :: insert path rest

/-- Paths in order, the first writing of each. -/
def sorted (paths : List FilePath) : List FilePath :=
  paths.foldl (fun ordered path => insert path ordered) []

/-! ## Common directories -/

/-- The directory above some levels of `common` that holds a directory; there is none if their roots
differ. -/
def climb : (levels : Nat) → (common directory : FilePath) → Option FilePath
  | 0, _, _ => none
  | levels + 1, common, directory =>
    if directory.startsWith common then some common
    else (common.parent?).bind fun above => climb levels above directory

/-- The deepest directory that holds all files, or the current one if that is unnamed. -/
def commonDirectory (files : List FilePath) : FilePath :=
  let found :=
    match files.filterMap parent? with
    | [] => none
    | first :: rest =>
      rest.foldlM (fun common directory => climb (common.parts.length + 1) common directory) first
  match found with
  | none => ⟨"."⟩
  | some common => if common.text.isEmpty then ⟨"."⟩ else common

@[simp] theorem same_self (path : FilePath) : path.same path = true := by simp [same]

theorem same_comm (path other : FilePath) : path.same other = other.same path := by
  simp [same, Bool.beq_comm]

end FilePath

end SheetCompiler
