import SheetCompiler.Files.FilePattern
import SheetCompiler.Json.Scan
import SheetCompiler.Settings
import SheetCompiler.Workbook.Csv

/-!
# Faults of a run

Why a run, or the conversion of one of its files, came to an end: settings or arguments that cannot be
used, inputs that are not there, and files that cannot be read or written.
-/

namespace SheetCompiler

/-- Why a file of comma-separated values could not be read. -/
inductive CsvFault where
  | text (fault : Csv.Fault)
  | file (fault : FileFault)
  deriving DecidableEq

/-- Why a run, or one of its files, failed. -/
inductive Fault where
  | settings (fault : SettingsFault)
  | noJobs
  | outputNotDirectory (path : FilePath)
  | inputPattern (pattern : FilePath) (fault : PatternFault)
  | file (fault : FileFault)
  | fileNotFound (path : FilePath)
  | unsupportedFormat (path : FilePath)
  | csv (path : FilePath) (fault : CsvFault)
  | json (path : FilePath) (flaw : Json.Flaw)
  deriving DecidableEq

namespace CsvFault

/-- What is wrong. -/
def message : CsvFault → String
  | text fault => fault.message
  | file fault => fault.message

end CsvFault

namespace Json.Flaw

/-- What is wrong. -/
def message : Json.Flaw → String
  | malformed => "malformed text"
  | mismatch => "unexpected form"
  | truncated => "unexpected end of text"
  | unreadable => FileFault.message .isDirectory

end Json.Flaw

namespace Fault

/-- A message about settings and arguments. -/
def ofSettings (message : String) : String := s!"Configuration error: {message}"

/-- What went wrong. -/
def message : Fault → String
  | settings fault => ofSettings fault.message
  | noJobs => ofSettings "Number of jobs must be greater than 0"
  | outputNotDirectory path => ofSettings s!"Output path is not a directory: {path.text}"
  | inputPattern pattern fault =>
    ofSettings s!"invalid input pattern '{pattern.text}': {fault.message}"
  | file fault => s!"IO error: {fault.message}"
  | fileNotFound path => s!"File not found: {path.text}"
  | unsupportedFormat path => s!"Unsupported workbook format: {path.text}"
  | csv path fault => s!"CSV error in file: {path.text} - {fault.message}"
  | json path flaw => s!"JSON error in file: {path.text} - {flaw.message}"

/-- What lies behind the fault, where that is told apart. -/
def cause? : Fault → Option String
  | file fault => some fault.message
  | csv _ fault => some fault.message
  | json _ flaw => some flaw.message
  | _ => none

/-- The message with what lies behind it. -/
def report (fault : Fault) : String :=
  match fault.cause? with
  | some cause => s!"{fault.message}: {cause}"
  | none => fault.message

end Fault

end SheetCompiler
