import SheetCompiler.Batch.Plan
import SheetCompiler.Proofs.FileNames

/-!
# Names of outputs

Whatever number an output gets, its name is the stem of its input, a mark for the number, and the
suffix of outputs (`Plan.toList_outputName`), and the output has this name at its end
(`Plan.name?_candidate`).  So no output is written over its own input, whose name is shorter or goes
on behind the stem in another way (`Plan.outputName_ne_name`).

An output may be written over another input, since only the earlier outputs count as taken.  But then
that input is named as an output itself, and among files that are not there is no such case.
-/

namespace SheetCompiler

namespace Plan

open FilePath (IsFileName)

variable {output : Option FilePath} {files : List FilePath} {input : FilePath}

/-! ## The name of an output -/

/-- What stands for the number in the name of an output. -/
def mark : Option Nat → List Char
  | none => []
  | some n => '_' :: (toString n).toList

theorem toList_outputName (input : FilePath) (number : Option Nat) :
    (outputName input number).toList =
      (input.stem?.getD "").toList ++ (mark number ++ suffix.toList) := by
  have hself : ∀ text : String, toString text = text := fun _ => rfl
  cases number with
  | none => simp [outputName, mark, hself]
  | some n => simp [outputName, mark, hself]

theorem separator_notMem_mark (number : Option Nat) : FilePath.separator ∉ mark number := by
  cases number with
  | none => exact List.not_mem_nil
  | some n =>
    rw [mark, List.mem_cons, not_or]
    refine ⟨by decide, fun hmem => ?_⟩
    have hdigits : FilePath.separator ∈ Nat.toDigits 10 n := by
      simpa [toString] using hmem
    have hdigit := Nat.isDigit_of_mem_toDigits (by decide) (by decide) hdigits
    revert hdigit
    decide

theorem isFileName_outputName (input : FilePath) (number : Option Nat) :
    IsFileName (outputName input number) := by
  have hlength : suffix.toList.length ≤ (outputName input number).toList.length := by
    rw [toList_outputName, List.length_append, List.length_append]
    omega
  have hlong : 2 < (outputName input number).toList.length :=
    Nat.lt_of_lt_of_le (by decide) hlength
  refine ⟨?_, ?_, ?_⟩
  · rw [toList_outputName, List.mem_append, List.mem_append, not_or, not_or]
    refine ⟨?_, separator_notMem_mark number, by decide⟩
    cases hstem : input.stem? with
    | none => exact List.not_mem_nil
    | some stem => exact FilePath.separator_notMem_stem hstem
  · rw [FilePath.isIdle, Bool.or_eq_false_iff, beq_eq_false_iff_ne]
    constructor
    · rw [List.isEmpty_eq_false_iff]
      intro hnil
      rw [hnil] at hlong
      cases hlong
    · intro hdot
      rw [hdot] at hlong
      revert hlong
      decide
  · intro hup
    rw [hup] at hlong
    revert hlong
    decide

/-- The output of an input has the name for it at its end. -/
theorem name?_candidate (output : Option FilePath) (input : FilePath) (number : Option Nat) :
    (candidate output input number).name? = some (outputName input number) :=
  FilePath.name?_join _ (isFileName_outputName input number)

/-- No output is named as its own input. -/
theorem outputName_ne_name {name : String} (h : input.name? = some name) (number : Option Nat) :
    outputName input number ≠ name := by
  intro hsame
  have hstem : (input.stem?.getD "").toList = (FilePath.cutName name.toList).1 := by
    rw [FilePath.stem?, h, Option.map_some, Option.getD_some, String.toList_ofList]
  obtain ⟨ending, hsplit, hending⟩ := FilePath.eq_stem_append name.toList
  have hwhole : (FilePath.cutName name.toList).1 ++ (mark number ++ suffix.toList) =
      (FilePath.cutName name.toList).1 ++ ending := by
    rw [← hsplit, ← hstem, ← toList_outputName, hsame]
  have hboth : mark number ++ suffix.toList = ending := List.append_cancel_left hwhole
  rcases hending with rfl | ⟨extension, rfl, hextension⟩
  · exact absurd (List.append_eq_nil_iff.mp hboth).2 (by decide)
  · cases number with
    | none =>
      -- the suffix has two dots
      rw [← (List.cons.inj hboth).2] at hextension
      exact absurd hextension (by decide)
    | some n => exact absurd (List.cons.inj hboth).1 (by decide)

/-! ## Outputs are candidates -/

/-- The search stops at a number, and all numbers before it are taken. -/
theorem exists_firstFree_eq (taken : List FilePath) (output : Option FilePath) (input : FilePath)
    (count number : Nat) :
    ∃ n, firstFree taken output input count number = candidate output input (some n) ∧
      number ≤ n ∧ ∀ m, number ≤ m → m < n → isTaken taken (candidate output input (some m)) := by
  induction count generalizing number with
  | zero => exact ⟨number, rfl, Nat.le_refl _, fun m hle hlt => by omega⟩
  | succ count ih =>
    rw [firstFree]
    split
    · rename_i htaken
      obtain ⟨n, hn, hle, hbefore⟩ := ih (number + 1)
      refine ⟨n, hn, by omega, fun m hm hlt => ?_⟩
      rcases Nat.eq_or_lt_of_le hm with rfl | hnext
      · exact htaken
      · exact hbefore m hnext hlt
    · exact ⟨number, rfl, Nat.le_refl _, fun m hle hlt => by omega⟩

/-- An output has no number, or a number from two on. -/
theorem choose_eq_candidate (taken : List FilePath) (output : Option FilePath)
    (input : FilePath) : ∃ number, (∀ n ∈ number, 2 ≤ n) ∧
      choose taken output input = candidate output input number := by
  rw [choose]
  split
  · obtain ⟨n, hfirst, hle, -⟩ := exists_firstFree_eq taken output input taken.length 2
    refine ⟨some n, fun other hother => ?_, hfirst⟩
    rwa [← Option.some.inj hother]
  · exact ⟨none, by simp, rfl⟩

theorem candidate_of_mem_outputsFrom {taken : List FilePath} {assignment : Assignment}
    (h : assignment ∈ outputsFrom taken output files) : ∃ number, (∀ n ∈ number, 2 ≤ n) ∧
      assignment.output = candidate output assignment.input number := by
  induction files generalizing taken with
  | nil => cases h
  | cons file rest ih =>
    rw [outputsFrom] at h
    rcases List.mem_cons.mp h with rfl | hrest
    · exact choose_eq_candidate taken output file
    · exact ih hrest

/-! ## Outputs and inputs -/

/-- No output is written over its own input.  If it is written over another input file, then that
file has the name of the output; so this does not happen among files that are not named as outputs
are. -/
theorem outputs_ne_inputs {assignment : Assignment} (h : assignment ∈ outputs output files) :
    assignment.output.same assignment.input = false ∧
    (∀ file ∈ files, assignment.output.same file = true → ∃ number, (∀ n ∈ number, 2 ≤ n) ∧
      file.name? = some (outputName assignment.input number)) ∧
    ((∀ file ∈ files, ∀ name, file.name? = some name → ¬ suffix.toList <:+ name.toList) →
      ∀ file ∈ files, assignment.output.same file = false) := by
  obtain ⟨number, hnumber, houtput⟩ := candidate_of_mem_outputsFrom h
  have hname : ∀ file, assignment.output.same file = true →
      file.name? = some (outputName assignment.input number) := by
    intro file hsame
    rw [← FilePath.name?_congr hsame, houtput, name?_candidate]
  refine ⟨?_, fun file _ hsame => ⟨number, hnumber, hname file hsame⟩, fun hsuffix file hfile => ?_⟩
  · rw [Bool.eq_false_iff]
    intro hsame
    exact outputName_ne_name (hname _ hsame) number rfl
  · rw [Bool.eq_false_iff]
    intro hsame
    refine hsuffix file hfile _ (hname file hsame) ?_
    rw [toList_outputName, ← List.append_assoc]
    exact List.suffix_append _ _

/-- Two files of the same name go into one directory, and the second output is numbered. -/
theorem outputs_ne_inputs_numbered :
    Assignment.mk ⟨"b/x.csv"⟩ ⟨"out/x_2.records.json"⟩ ∈
      outputs (some ⟨"out"⟩) [⟨"a/x.csv"⟩, ⟨"b/x.csv"⟩] ∧
    ∀ file ∈ [FilePath.mk "a/x.csv", ⟨"b/x.csv"⟩],
      FilePath.same ⟨"out/x_2.records.json"⟩ file = false := by
  have hmem : Assignment.mk ⟨"b/x.csv"⟩ ⟨"out/x_2.records.json"⟩ ∈
      outputs (some ⟨"out"⟩) [⟨"a/x.csv"⟩, ⟨"b/x.csv"⟩] := by
    decide +kernel
  refine ⟨hmem, (outputs_ne_inputs hmem).2.2 ?_⟩
  have hnames : ∀ name ∈ ([FilePath.mk "a/x.csv", ⟨"b/x.csv"⟩].filterMap FilePath.name?),
      ¬ suffix.toList <:+ name.toList := by
    decide +kernel
  intro file hfile name hname
  exact hnames name (List.mem_filterMap.mpr ⟨file, hfile, hname⟩)

/-- An input that is named as an output may be written over. -/
theorem not_forall_output_ne_input : ¬ ∀ (output : Option FilePath) (files : List FilePath),
    ∀ assignment ∈ outputs output files, ∀ file ∈ files, assignment.output.same file = false := by
  intro h
  have hover : ∃ assignment ∈ outputs none [⟨"x.csv"⟩, ⟨"x.records.json"⟩],
      ∃ file ∈ [FilePath.mk "x.csv", ⟨"x.records.json"⟩],
        assignment.output.same file = true := by
    decide +kernel
  obtain ⟨assignment, hassignment, file, hfile, hsame⟩ := hover
  rw [h none _ assignment hassignment file hfile] at hsame
  cases hsame

end Plan

end SheetCompiler
