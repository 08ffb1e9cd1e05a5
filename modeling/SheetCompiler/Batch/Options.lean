import SheetCompiler.Header.Column

/-!
# Options of a batch

How a batch reads worksheets, how it writes outputs, and how it goes about its files.  Files are
converted independently of each other, so the number of jobs changes how long a batch takes and not
what it comes to.
-/

namespace SheetCompiler

/-- How a batch is to be converted. -/
structure BatchOptions where
  settings : Settings := {}
  /-- How many workbooks are converted at a time; without a number as many as there are
  processors. -/
  jobs : Option Nat := none
  /-- Whether outputs are written on many lines. -/
  pretty : Bool := false
  /-- Whether the first failure ends the batch. -/
  failFast : Bool := false
  deriving DecidableEq

namespace BatchOptions

/-- The options with a number of jobs; there is always at least one. -/
def withJobs (options : BatchOptions) (jobs : Nat) : BatchOptions :=
  { options with jobs := some (max jobs 1) }

end BatchOptions

end SheetCompiler
