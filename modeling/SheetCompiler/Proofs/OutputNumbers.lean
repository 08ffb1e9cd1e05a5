import SheetCompiler.Proofs.OutputFiles

/-!
# Numbers of outputs

Which number an output gets depends on the outputs planned before it only (`Plan.IsNumber`): none if
the output is free without one, else the least number from two on that makes it free.  The search for
it is bounded in `Plan.firstFree`, but the bound is never what stops it: among as many numbers as there
are earlier outputs one is free (`Plan.IsNumber.le`).
-/

namespace SheetCompiler

namespace Plan

variable {taken other files : List FilePath} {output : Option FilePath} {input path : FilePath}
  {number : Option Nat}

/-- No taken path has the same parts. -/
def IsFree (taken : List FilePath) (path : FilePath) : Prop :=
  ∀ other ∈ taken, path.same other = false

/-- The number that the output of an input gets after the taken outputs. -/
inductive IsNumber (taken : List FilePath) (output : Option FilePath) (input : FilePath) :
    Option Nat → Prop
  | plain (hfree : IsFree taken (candidate output input none)) : IsNumber taken output input none
  | numbered {n : Nat} (htaken : ¬ IsFree taken (candidate output input none))
      (hleast : IsLeast {n | 2 ≤ n ∧ IsFree taken (candidate output input (some n))} n) :
      IsNumber taken output input (some n)

theorem IsFree.congr (h : ∀ path, path ∈ taken ↔ path ∈ other) :
    IsFree taken path ↔ IsFree other path :=
  forall_congr' fun _ => imp_congr_left (h _)

/-- The number depends on which outputs are taken, and not on their order. -/
theorem IsNumber.congr (h : ∀ path, path ∈ taken ↔ path ∈ other)
    (hnumber : IsNumber taken output input number) : IsNumber other output input number := by
  cases hnumber with
  | plain hfree => exact .plain ((IsFree.congr h).mp hfree)
  | numbered htaken hleast =>
    simp only [IsFree.congr h] at htaken hleast
    exact .numbered htaken hleast

/-- An output without a number is tried first, and then one number after another. -/
theorem attempt_injective : Function.Injective fun n => if n = 1 then none else some n := by
  intro n m h
  dsimp only at h
  split at h <;> split at h
  · rename_i hn hm
    rw [hn, hm]
  · cases h
  · cases h
  · exact Option.some.inj h

/-- No more outputs are tried than one for each taken output, and the free one. -/
theorem IsNumber.le (h : IsNumber taken output input number) :
    ∀ n ∈ number, n ≤ taken.length + 1 := by
  cases h with
  | plain hfree => exact fun n hn => by cases hn
  | numbered htaken hleast =>
    rintro n hn
    obtain rfl := Option.some.inj hn
    obtain ⟨m, hle, hbound, hfree⟩ := exists_notMem_of_injective
      ((parts_candidate_injective output input).comp attempt_injective)
      (taken.map FilePath.parts) 1
    rw [List.length_map] at hbound
    have hparts : ∀ path : FilePath, path.parts ∉ taken.map FilePath.parts → IsFree taken path := by
      intro path hpath other hother
      rw [FilePath.same, beq_eq_false_iff_ne]
      exact fun hsame => hpath (List.mem_map.mpr ⟨other, hother, hsame.symm⟩)
    dsimp only [Function.comp] at hfree
    split at hfree
    · exact absurd (hparts _ hfree) htaken
    · have hfirst := hleast.2 ⟨by omega, hparts _ hfree⟩
      omega

theorem exists_isNumber_choose (taken : List FilePath) (output : Option FilePath)
    (input : FilePath) : ∃ number, IsNumber taken output input number ∧
      choose taken output input = candidate output input number := by
  have hfree := isTaken_choose taken output input
  rw [choose] at hfree ⊢
  split
  · rename_i htaken
    obtain ⟨n, hn, hle, hbefore⟩ := exists_firstFree_eq taken output input taken.length 2
    rw [if_pos htaken, hn, isTaken_eq_false] at hfree
    refine ⟨some n, .numbered (fun hplain => ?_) ⟨⟨hle, hfree⟩, fun m hm => ?_⟩, hn⟩
    · rw [direct, isTaken_eq_false.mpr hplain] at htaken
      cases htaken
    · by_contra hlt
      have hearlier := hbefore m hm.1 (by omega)
      rw [isTaken_eq_false.mpr hm.2] at hearlier
      cases hearlier
  · rename_i hplain
    exact ⟨none, .plain (isTaken_eq_false.mp (Bool.eq_false_iff.mpr hplain)), rfl⟩

theorem exists_isNumber_outputsFrom {i : Nat} {assignment : Assignment}
    (h : (outputsFrom taken output files)[i]? = some assignment) : ∃ number,
      IsNumber (((outputsFrom taken output files).take i).map Assignment.output ++ taken)
        output assignment.input number ∧
      assignment.output = candidate output assignment.input number := by
  induction files generalizing taken i with
  | nil => cases h
  | cons file rest ih =>
    rw [outputsFrom] at h ⊢
    cases i with
    | zero =>
      obtain rfl := Option.some.inj h
      exact exists_isNumber_choose taken output file
    | succ i =>
      obtain ⟨number, hnumber, houtput⟩ := ih h
      refine ⟨number, hnumber.congr fun path => ?_, houtput⟩
      rw [List.take_succ_cons, List.map_cons, List.cons_append]
      exact List.perm_middle.mem_iff

/-- The outputs of a plan follow one rule.  There is one for each file, in order.  It stands in the
output directory or else beside its input, and its name is the stem of the input, then a number if it
has one, and the suffix.  It has no number if no earlier output is the same path, and otherwise the
least number from two on for which no earlier output is, which is not greater than the number of outputs
so far.  So all outputs are different paths. -/
theorem outputs_numbered (output : Option FilePath) (files : List FilePath) :
    (outputs output files).map Assignment.input = files ∧
    (∀ (i : Nat) (assignment : Assignment), (outputs output files)[i]? = some assignment →
      ∃ number,
        IsNumber (((outputs output files).take i).map Assignment.output) output assignment.input
          number ∧
        (∀ n ∈ number, n ≤ i + 1) ∧
        assignment.output = (directoryFor output assignment.input).join
          ⟨outputName assignment.input number⟩ ∧
        assignment.output.parts = (directoryFor output assignment.input).parts ++
          [.name (outputName assignment.input number)] ∧
        (outputName assignment.input number).toList =
          (assignment.input.stem?.getD "").toList ++ (mark number ++ suffix.toList)) ∧
    (outputs output files).Pairwise fun first second =>
      first.output.same second.output = false := by
  refine ⟨map_input_outputsFrom [] output files, fun i assignment h => ?_,
    outputs_differ output files⟩
  obtain ⟨number, hnumber, houtput⟩ := exists_isNumber_outputsFrom h
  rw [List.append_nil] at hnumber
  have hlength : (((outputs output files).take i).map Assignment.output).length ≤ i := by
    rw [List.length_map]
    exact List.length_take_le i _
  refine ⟨number, hnumber, fun n hn => ?_, houtput, ?_, toList_outputName _ _⟩
  · exact Nat.le_trans (hnumber.le n hn) (Nat.succ_le_succ hlength)
  · rw [houtput, parts_candidate]

/-- A file of another name has the number two already, and two writings of a directory are one. -/
theorem outputs_numbered_three :
    (outputs none [⟨"a/b/x_2.csv"⟩, ⟨"a/./b/x.csv"⟩, ⟨"a/b/x.json"⟩])[2]? =
      some ⟨⟨"a/b/x.json"⟩, ⟨"a/b/x_3.records.json"⟩⟩ ∧
    IsNumber [⟨"a/b/x_2.records.json"⟩, ⟨"a/./b/x.records.json"⟩] none ⟨"a/b/x.json"⟩
      (some 3) := by
  have hplan : outputs none [⟨"a/b/x_2.csv"⟩, ⟨"a/./b/x.csv"⟩, ⟨"a/b/x.json"⟩] =
      [⟨⟨"a/b/x_2.csv"⟩, ⟨"a/b/x_2.records.json"⟩⟩,
        ⟨⟨"a/./b/x.csv"⟩, ⟨"a/./b/x.records.json"⟩⟩,
        ⟨⟨"a/b/x.json"⟩, ⟨"a/b/x_3.records.json"⟩⟩] := by
    decide +kernel
  obtain ⟨-, hnumbers, -⟩ :=
    outputs_numbered none [⟨"a/b/x_2.csv"⟩, ⟨"a/./b/x.csv"⟩, ⟨"a/b/x.json"⟩]
  rw [hplan] at hnumbers ⊢
  obtain ⟨number, hnumber, -, -, hparts, -⟩ := hnumbers 2 _ rfl
  have hname : outputName ⟨"a/b/x.json"⟩ (some 3) = "x_3.records.json" := by decide +kernel
  have hthree : outputName ⟨"a/b/x.json"⟩ number = outputName ⟨"a/b/x.json"⟩ (some 3) := by
    have hlast := congrArg List.getLast? hparts
    rw [List.getLast?_concat] at hlast
    rw [hname]
    have hwritten : (FilePath.mk "a/b/x_3.records.json").parts.getLast? =
        some (.name "x_3.records.json") := by
      decide +kernel
    exact (FilePath.Part.name.inj (Option.some.inj (hwritten.symm.trans hlast))).symm
  obtain rfl := outputName_injective _ hthree
  exact ⟨rfl, hnumber⟩

end Plan

end SheetCompiler
