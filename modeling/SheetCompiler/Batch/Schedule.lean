import SheetCompiler.Batch.Convert

/-!
# Converting workbooks side by side

`Batch.convertAll` converts the files of a plan one after another.  With room for several
conversions at a time they overlap, and each file makes four moves: it is admitted, its input is
read and compiled, its output is written, and its result is taken into the tally.  Between two moves
of a file others may make theirs.

Files are admitted in the order of the plan, as long as there is room; a file needs its room until
its result is taken, and results are taken in any order.  A batch that is to stop at the first
failure stops when such a result is taken.  From then on nothing is admitted, read or taken, though
a write may still be made.

`Conversion.advance?` is one move and `Conversion.run?` a whole schedule of them, which says whose
turn it is each time.
-/

namespace SheetCompiler

/-- How far the conversion of a file has come. -/
inductive Stage where
  | waiting
  | reading
  | writing (workbook : CompiledWorkbook)
  | ended (result : Except Fault CompiledWorkbook)
  | taken (result : Except Fault CompiledWorkbook)

namespace Stage

/-- Whether the file is still to be admitted. -/
def isWaiting : Stage → Bool
  | waiting => true
  | _ => false

/-- Whether the result has been taken. -/
def isTaken : Stage → Bool
  | taken _ => true
  | _ => false

/-- Whether the file needs room. -/
def isRunning (stage : Stage) : Bool := !stage.isWaiting && !stage.isTaken

end Stage

/-- A file of a plan and how far it has come. -/
structure Job where
  assignment : Assignment
  stage : Stage := .waiting

namespace Tally

/-- Count the result of a conversion. -/
def addResult (tally : Tally) : Except Fault CompiledWorkbook → Tally
  | .ok workbook => tally.addWorkbook workbook
  | .error _ => tally.addFailure

end Tally

/-- A batch under way: its files in the order of the plan, and what they have come to. -/
structure Conversion where
  tree : FileTree
  jobs : List Job
  tally : Tally := {}
  /-- The failure that has stopped the batch. -/
  stopped : Option Fault := none

namespace Batch

/-- The failure at which a batch is to stop, if a result is one. -/
def stopAt? (batch : Batch) : Except Fault CompiledWorkbook → Option Fault
  | .ok _ => none
  | .error fault => if batch.failFast then some fault else none

end Batch

namespace Conversion

/-- The number of files for which there is room at a time, with a number of jobs. -/
def room (jobs files : Nat) : Nat := max (min jobs files) 1

/-- A batch before its first move. -/
def start (tree : FileTree) (plan : List Assignment) : Conversion :=
  { tree := tree, jobs := plan.map fun assignment => { assignment := assignment } }

/-- The number of files that need room. -/
def running (state : Conversion) : Nat := state.jobs.countP fun job => job.stage.isRunning

/-- Whether the file at a place is the next one to be admitted and there is room. -/
def admits (room : Nat) (state : Conversion) (place : Nat) : Bool :=
  state.running < room && (state.jobs.take place).all fun job => !job.stage.isWaiting

/-- The batch with the file at a place at another stage. -/
def moveTo (state : Conversion) (place : Nat) (job : Job) (stage : Stage) : Conversion :=
  { state with jobs := state.jobs.set place { job with stage := stage } }

/-- The next move of the file at a place, if it can be made. -/
def advance? (batch : Batch) (room : Nat) (state : Conversion) (place : Nat) :
    Option Conversion :=
  state.jobs[place]?.bind fun job =>
    match job.stage with
    | .waiting =>
      if state.stopped.isNone && state.admits room place then
        some (state.moveTo place job .reading)
      else none
    | .reading =>
      if state.stopped.isSome then none
      else
        match Batch.prepare batch.rules state.tree job.assignment.input with
        | .ok workbook => some (state.moveTo place job (.writing workbook))
        | .error fault => some (state.moveTo place job (.ended (.error fault)))
    | .writing workbook =>
      match Batch.deliver batch.pretty state.tree job.assignment.output workbook with
      | .ok tree => some { state.moveTo place job (.ended (.ok workbook)) with tree := tree }
      | .error fault => some (state.moveTo place job (.ended (.error fault)))
    | .ended result =>
      if state.stopped.isSome then none
      else
        some { state.moveTo place job (.taken result) with
          tally := state.tally.addResult result
          stopped := batch.stopAt? result }
    | .taken _ => none

/-- The moves of a schedule, one after another. -/
def run? (batch : Batch) (room : Nat) (state : Conversion) (schedule : List Nat) :
    Option Conversion :=
  schedule.foldlM (advance? batch room) state

/-- Whether all results are taken, or a failure has stopped the batch. -/
def isFinished (state : Conversion) : Bool :=
  state.stopped.isSome || state.jobs.all fun job => job.stage.isTaken

/-- What a batch has come to. -/
def answer (state : Conversion) : Except Fault Tally :=
  match state.stopped with
  | some fault => .error fault
  | none => .ok state.tally

end Conversion

end SheetCompiler
