import SheetCompiler.Compiled.Sheet

/-!
# Compiled workbooks

A workbook is compiled sheet by sheet.  A sheet with a fault is set aside with its message and the
others are compiled all the same.  In the output each sheet stands under its name; when sheets share
a name the later ones are numbered, from two on, with the first number that is still free.
-/

namespace SheetCompiler

/-- A sheet that was set aside. -/
structure FailedSheet where
  name : String
  reason : String
  deriving DecidableEq

/-- What the sheets of a workbook compile to. -/
structure CompiledWorkbook where
  sheets : List CompiledSheet := []
  failures : List FailedSheet := []
  deriving DecidableEq

namespace CompiledWorkbook

/-- Compile one more sheet. -/
def addSheet (rules : Rules) (workbook : CompiledWorkbook) (sheet : Worksheet) :
    CompiledWorkbook :=
  match CompiledSheet.ofWorksheet rules sheet with
  | .ok compiled => { workbook with sheets := workbook.sheets ++ [compiled] }
  | .error fault =>
    { workbook with failures := workbook.failures ++ [⟨sheet.name, fault.message⟩] }

/-- Compile the sheets of a workbook, in order. -/
def ofSheets (rules : Rules) (sheets : List Worksheet) : CompiledWorkbook :=
  sheets.foldl (addSheet rules) {}

/-- The number of records in all sheets. -/
def recordCount (workbook : CompiledWorkbook) : Nat :=
  (workbook.sheets.flatMap CompiledSheet.records).length

/-! ## Output -/

/-- A name with a number behind it. -/
def numbered (name : String) (number : Nat) : String := s!"{name} ({number})"

/-- The first numbered name that is free, among some numbers from a given one on. -/
def firstFree (taken : List String) (name : String) : (count number : Nat) → String
  | 0, number => numbered name number
  | count + 1, number =>
    if taken.contains (numbered name number) then firstFree taken name count (number + 1)
    else numbered name number

/-- The name itself, or the first numbered one that is free.  There are more candidates than taken
names, so the search ends at a free one. -/
def freeName (taken : List String) (name : String) : String :=
  if taken.contains name then firstFree taken name taken.length 2 else name

/-- Write the output of one sheet under a free name. -/
def addOutput (output : Record) (sheet : CompiledSheet) : Record :=
  Entries.put (freeName (Entries.names output) sheet.name) sheet.toValue output

/-- The output of a compiled workbook. -/
def toValue (workbook : CompiledWorkbook) : Value :=
  .record (workbook.sheets.foldl addOutput [])

end CompiledWorkbook

end SheetCompiler
