import SheetCompiler.Files.FilePath
import SheetCompiler.Text.Lowercase

/-!
# Workbook formats

The format of a workbook is told by the extension of its file, in any letter case.
-/

namespace SheetCompiler

/-- What a workbook file holds. -/
inductive WorkbookFormat where
  | csv
  | json
  deriving DecidableEq

namespace WorkbookFormat

/-- The extension of a format. -/
def extension : WorkbookFormat → String
  | csv => "csv"
  | json => "json"

/-- All formats. -/
def all : List WorkbookFormat := [csv, json]

/-- The format of a file. -/
def ofPath? (path : FilePath) : Option WorkbookFormat :=
  (path.extension?).bind fun extension =>
    all.find? fun format => Text.lowercase extension == format.extension

/-- A letter from A to Z in lower case. -/
def lowerLatin (c : Char) : Char :=
  if 'A'.toNat ≤ c.toNat ∧ c.toNat ≤ 'Z'.toNat then Char.ofNat (c.toNat + 32) else c

/-- Whether a file looks like a workbook: its extension is one of a format, when only the letters
from A to Z may be in another case. -/
def isSupported (path : FilePath) : Bool :=
  (path.extension?).any fun extension =>
    all.any fun format => extension.toList.map lowerLatin == format.extension.toList

end WorkbookFormat

end SheetCompiler
