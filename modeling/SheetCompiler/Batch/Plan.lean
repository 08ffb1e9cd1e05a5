import SheetCompiler.Files.FilePath

/-!
# Planning outputs

Each input file gets an output file that no other one has.  The output is named after the input and
stands in the output directory, or else beside the input.  Where an earlier output has that name
already, the name is numbered, from two on, with the first number that is free.
-/

namespace SheetCompiler

/-- Where an input file is written to. -/
structure Assignment where
  input : FilePath
  output : FilePath
  deriving DecidableEq

namespace Plan

/-- How the names of outputs end. -/
def suffix : String := ".records.json"

/-- The name of an output file, with a number if one is needed. -/
def outputName (input : FilePath) (number : Option Nat) : String :=
  let stem := input.stem?.getD ""
  match number with
  | some n => s!"{stem}_{n}{suffix}"
  | none => s!"{stem}{suffix}"

/-- The directory of an output file. -/
def directoryFor (output : Option FilePath) (input : FilePath) : FilePath :=
  match output with
  | some directory => directory
  | none => input.parent?.getD ⟨"."⟩

/-- The output file of an input with a number, or without one. -/
def candidate (output : Option FilePath) (input : FilePath) (number : Option Nat) : FilePath :=
  (directoryFor output input).join ⟨outputName input number⟩

/-- The output file of an input by itself. -/
def direct (output : Option FilePath) (input : FilePath) : FilePath := candidate output input none

/-- Whether an output has been taken. -/
def isTaken (taken : List FilePath) (path : FilePath) : Bool := taken.any path.same

/-- The first numbered output that is free, among some numbers from a given one on. -/
def firstFree (taken : List FilePath) (output : Option FilePath) (input : FilePath) :
    (count number : Nat) → FilePath
  | 0, number => candidate output input (some number)
  | count + 1, number =>
    if isTaken taken (candidate output input (some number)) then
      firstFree taken output input count (number + 1)
    else candidate output input (some number)

/-- The output of an input when others are taken.  There are more candidates than taken outputs, so
the search ends at a free one. -/
def choose (taken : List FilePath) (output : Option FilePath) (input : FilePath) : FilePath :=
  if isTaken taken (direct output input) then firstFree taken output input taken.length 2
  else direct output input

/-- The outputs of files, in order, when others are taken. -/
def outputsFrom (taken : List FilePath) (output : Option FilePath) :
    List FilePath → List Assignment
  | [] => []
  | input :: rest =>
    let chosen := choose taken output input
    ⟨input, chosen⟩ :: outputsFrom (chosen :: taken) output rest

/-- The outputs of files, in order. -/
def outputs (output : Option FilePath) (files : List FilePath) : List Assignment :=
  outputsFrom [] output files

/-- There is one output for each file, in order. -/
@[simp] theorem map_input_outputsFrom (taken : List FilePath) (output : Option FilePath)
    (files : List FilePath) :
    (outputsFrom taken output files).map Assignment.input = files := by
  induction files generalizing taken with
  | nil => rfl
  | cons input rest ih => simp [outputsFrom, ih]

end Plan

end SheetCompiler
