/-!
# Faults of a worksheet

Why a worksheet could not be compiled.  A fault either concerns the sheet as a whole, before any
data row is read, or one of its cells or rows.  Columns with a bad header are no fault: they are
left out.
-/

namespace SheetCompiler

/-- What a header block lacks. -/
inductive SchemaGap where
  | noHeaderRows
  | noFieldRows
  deriving DecidableEq

/-- Why a worksheet could not be compiled. -/
inductive SheetFault where
  | noExtent (sheet : String)
  | noSchema (sheet : String) (gap : SchemaGap)
  | unreadableCell (sheet : String) (row column : Nat) (reason : String)
  | untypedField (sheet : String) (row : Nat) (path : String)
  | emptyFieldPath (sheet : String) (row column : Nat)
  | pathConflict (sheet : String) (row column : Nat) (path : String)
  deriving DecidableEq

namespace SchemaGap

/-- What is missing. -/
def message : SchemaGap → String
  | noHeaderRows => "no header rows found"
  | noFieldRows => "header block needs at least one var row and one type row"

end SchemaGap

namespace SheetFault

/-- What went wrong, and where. -/
def message : SheetFault → String
  | noExtent sheet => s!"Sheet '{sheet}' has no dimension information"
  | noSchema sheet gap => s!"No schema found in sheet '{sheet}': {gap.message}"
  | unreadableCell sheet row column reason =>
    s!"Failed to read cell in sheet '{sheet}' at row {row}, column {column}: {reason}"
  | untypedField sheet row path =>
    s!"No type declared for path '{path}' in sheet '{sheet}' (row {row})"
  | emptyFieldPath sheet row column =>
    s!"Column {column} in sheet '{sheet}' declares an empty var path (row {row})"
  | pathConflict sheet row column path =>
    s!"Path '{path}' in sheet '{sheet}' is used both as a value and as an object " ++
      s!"(row {row}, column {column})"

/-- Whether the fault lies in a row or a cell. -/
def isData : SheetFault → Bool
  | unreadableCell .. | untypedField .. | emptyFieldPath .. | pathConflict .. => true
  | noExtent .. | noSchema .. => false

/-- Whether the fault concerns the sheet as a whole. -/
def isSheet (fault : SheetFault) : Bool := !fault.isData

end SheetFault

end SheetCompiler
