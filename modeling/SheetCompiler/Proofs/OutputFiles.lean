import SheetCompiler.Proofs.FileConversion
import SheetCompiler.Proofs.NumberedNames
import SheetCompiler.Proofs.OutputNames
import SheetCompiler.Proofs.PathParts

/-!
# Files of outputs

The outputs of a plan are different paths.  An input has more numbered outputs than are taken, and
they differ, so the search for a free one finds it (`Plan.isTaken_choose`).

Different paths may denote one file.  Outputs in one directory begin alike and then differ in their
plain parts (`Plan.opensHere_ne_of_plainParts`), but without an output directory an output that is
opened by a dot and one that is not may share all other parts, and then the later one replaces the
earlier one (`Batch.exists_output_replaced`).  Where this is excluded, every output of a batch
without failures is a file of its own, which holds what its workbook came to
(`Batch.run_writes_ownFiles`).  For this the outputs must not be spelled by different ways up either.

What the conversion of a plan does to a tree is `Batch.Converted`; one more file at the front of the
plan keeps it (`Batch.Converted.cons`).
-/

namespace SheetCompiler

namespace Plan

variable {taken files : List FilePath} {output : Option FilePath} {input path : FilePath}

/-! ## Outputs are different paths -/

theorem mark_injective : Function.Injective mark := by
  intro number other h
  cases number with
  | none =>
    cases other with
    | none => rfl
    | some n => cases h
  | some n =>
    cases other with
    | none => cases h
    | some m =>
      have hdigits : Nat.toDigits 10 n = Nat.toDigits 10 m := by
        simpa [toString] using (List.cons.inj h).2
      rw [toDigits_injective hdigits]

theorem outputName_injective (input : FilePath) : Function.Injective (outputName input) := by
  intro number other h
  have hchars : (input.stem?.getD "").toList ++ (mark number ++ suffix.toList) =
      (input.stem?.getD "").toList ++ (mark other ++ suffix.toList) := by
    rw [← toList_outputName, ← toList_outputName, h]
  exact mark_injective (List.append_cancel_right (List.append_cancel_left hchars))

theorem parts_candidate (output : Option FilePath) (input : FilePath) (number : Option Nat) :
    (candidate output input number).parts =
      (directoryFor output input).parts ++ [.name (outputName input number)] :=
  FilePath.parts_join _ (isFileName_outputName input number)

theorem parts_candidate_injective (output : Option FilePath) (input : FilePath) :
    Function.Injective fun number => (candidate output input number).parts := by
  intro number other h
  simp only [parts_candidate] at h
  have hname := List.append_cancel_left h
  exact outputName_injective input (FilePath.Part.name.inj (List.cons.inj hname).1)

theorem isTaken_eq_false :
    isTaken taken path = false ↔ ∀ other ∈ taken, path.same other = false := by
  simp [isTaken]

/-- Of more numbers than there are taken outputs, one gives a free output. -/
theorem exists_isTaken_eq_false (taken : List FilePath) (output : Option FilePath)
    (input : FilePath) (first : Nat) : ∃ n, first ≤ n ∧ n ≤ first + taken.length ∧
      isTaken taken (candidate output input (some n)) = false := by
  have hinjective : Function.Injective fun n => (candidate output input (some n)).parts :=
    fun n other h => Option.some.inj (parts_candidate_injective output input h)
  obtain ⟨n, hle, hlt, hfree⟩ :=
    exists_notMem_of_injective hinjective (taken.map FilePath.parts) first
  rw [List.length_map] at hlt
  refine ⟨n, hle, hlt, isTaken_eq_false.mpr fun other hother => ?_⟩
  rw [FilePath.same, beq_eq_false_iff_ne]
  exact fun hsame => hfree (List.mem_map.mpr ⟨other, hother, hsame.symm⟩)

theorem isTaken_firstFree {count number : Nat} (h : ∃ n, number ≤ n ∧ n ≤ number + count ∧
      isTaken taken (candidate output input (some n)) = false) :
    isTaken taken (firstFree taken output input count number) = false := by
  induction count generalizing number with
  | zero =>
    obtain ⟨n, hle, hlt, hfree⟩ := h
    obtain rfl : number = n := by omega
    exact hfree
  | succ count ih =>
    rw [firstFree]
    split
    · rename_i htaken
      obtain ⟨n, hle, hlt, hfree⟩ := h
      have hne : n ≠ number := by
        rintro rfl
        rw [hfree] at htaken
        cases htaken
      exact ih ⟨n, by omega, by omega, hfree⟩
    · rename_i hfree
      exact Bool.eq_false_iff.mpr hfree

/-- The output that is chosen is free. -/
theorem isTaken_choose (taken : List FilePath) (output : Option FilePath) (input : FilePath) :
    isTaken taken (choose taken output input) = false := by
  rw [choose]
  split
  · exact isTaken_firstFree (exists_isTaken_eq_false taken output input 2)
  · rename_i hfree
    exact Bool.eq_false_iff.mpr hfree

theorem outputsFrom_differ (taken : List FilePath) (output : Option FilePath)
    (files : List FilePath) :
    (∀ assignment ∈ outputsFrom taken output files, isTaken taken assignment.output = false) ∧
      (outputsFrom taken output files).Pairwise fun first second =>
        first.output.same second.output = false := by
  induction files generalizing taken with
  | nil => exact ⟨fun _ hmem => absurd hmem List.not_mem_nil, List.Pairwise.nil⟩
  | cons file rest ih =>
    obtain ⟨hfree, hrest⟩ := ih (choose taken output file :: taken)
    simp only [isTaken_eq_false, List.forall_mem_cons] at hfree
    rw [outputsFrom]
    refine ⟨List.forall_mem_cons.mpr ⟨isTaken_choose taken output file, fun assignment hmem => ?_⟩,
      List.pairwise_cons.mpr ⟨fun assignment hmem => ?_, hrest⟩⟩
    · exact isTaken_eq_false.mpr (hfree assignment hmem).2
    · rw [FilePath.same_comm]
      exact (hfree assignment hmem).1

theorem outputs_differ (output : Option FilePath) (files : List FilePath) :
    (outputs output files).Pairwise fun first second =>
      first.output.same second.output = false :=
  (outputsFrom_differ [] output files).2

/-- Outputs that have their plain parts in common stand beside their inputs, and one of them is
opened by a dot. -/
theorem opensHere_ne_of_plainParts (output : Option FilePath) (files : List FilePath) :
    (outputs output files).Pairwise fun first second =>
      first.output.plainParts = second.output.plainParts →
        output = none ∧ first.output.opensHere ≠ second.output.opensHere := by
  refine (outputs_differ output files).imp_of_mem ?_
  intro first second hfirst hsecond hdiffer hplain
  have hopen : first.output.opensHere ≠ second.output.opensHere := by
    intro hopen
    rw [FilePath.same_of_plainParts hopen hplain] at hdiffer
    cases hdiffer
  cases output with
  | none => exact ⟨rfl, hopen⟩
  | some directory =>
    have hdirectory : ∀ assignment ∈ outputs (some directory) files,
        assignment.output.opensHere = directory.opensHere := by
      intro assignment hmem
      obtain ⟨number, -, houtput⟩ := candidate_of_mem_outputsFrom hmem
      rw [houtput]
      exact FilePath.opensHere_join directory (isFileName_outputName _ number)
    exact absurd ((hdirectory first hfirst).trans (hdirectory second hsecond).symm) hopen

/-- Outputs in one directory go on from it with their names. -/
theorem level_outputs (directory : FilePath) (files : List FilePath) :
    FilePath.Level ((outputs (some directory) files).map Assignment.output) := by
  refine ⟨directory.plainParts, fun path hpath => ?_⟩
  obtain ⟨assignment, hmem, rfl⟩ := List.mem_map.mp hpath
  obtain ⟨number, -, houtput⟩ := candidate_of_mem_outputsFrom hmem
  refine ⟨[outputName assignment.input number], ?_⟩
  rw [houtput]
  exact FilePath.plainParts_join directory (isFileName_outputName _ number)

/-- The locations that the outputs of a plan spell. -/
def spelled (home : Location) (plan : List Assignment) : List Location :=
  plan.map fun assignment => FileTree.spelled home assignment.output

theorem nodup_spelled {plan : List Assignment} (home : Location)
    (hlevel : FilePath.Level (plan.map Assignment.output))
    (hplain : plan.Pairwise fun first second =>
      first.output.plainParts ≠ second.output.plainParts) : (spelled home plan).Nodup := by
  refine List.pairwise_map.mpr (hplain.imp_of_mem ?_)
  intro first second hfirst hsecond hne hsame
  exact hne (hlevel.plainParts_eq (List.mem_map_of_mem hfirst) (List.mem_map_of_mem hsecond) hsame)

end Plan

namespace Batch

variable {batch : Batch} {tree middle after : FileTree} {plan rest : List Assignment}
  {assignment : Assignment} {workbook : CompiledWorkbook}

/-! ## Plans that are converted without failures -/

/-- The tree when it is the turn of the file at a place of a plan. -/
def turn (batch : Batch) (tree : FileTree) (plan : List Assignment) (place : Nat) : FileTree :=
  (batch.convertAll {} tree (plan.take place)).1

theorem fst_convertAll (batch : Batch) (tally other : Tally) (tree : FileTree)
    (plan : List Assignment) :
    (batch.convertAll tally tree plan).1 = (batch.convertAll other tree plan).1 := by
  induction plan generalizing tally other tree with
  | nil => rfl
  | cons assignment rest ih =>
    rw [convertAll, convertAll]
    cases batch.convert tree assignment with
    | ok found => exact ih _ _ _
    | error fault =>
      dsimp only
      split
      · rfl
      · exact ih _ _ _

theorem turn_succ (h : batch.convert tree assignment = .ok (workbook, middle)) (place : Nat) :
    batch.turn tree (assignment :: rest) (place + 1) = batch.turn middle rest place := by
  rw [turn, turn, List.take_succ_cons, convertAll, h]
  exact fst_convertAll ..

/-- All files of a plan are converted, and each output is a file of its own. -/
structure Converted (batch : Batch) (tree : FileTree) (plan : List Assignment)
    (after : FileTree) : Prop where
  directories : tree.SameDirectories after
  others : ∀ location ∉ Plan.spelled tree.home plan, after.node? location = tree.node? location
  own : ∀ place assignment, plan[place]? = some assignment → ∃ workbook,
    prepare batch.rules (batch.turn tree plan place) assignment.input = .ok workbook ∧
    after.location? assignment.output = some (FileTree.spelled tree.home assignment.output) ∧
    after.node? (FileTree.spelled tree.home assignment.output) =
      some (.file (outputBytes batch.pretty workbook))

theorem converted_nil (batch : Batch) (tree : FileTree) : batch.Converted tree [] tree :=
  ⟨.refl tree, fun _ _ => rfl, fun _ _ h => by simp at h⟩

/-- A file is converted before those of a plan whose outputs are others. -/
theorem Converted.cons (h : batch.Converted middle rest after)
    (hconvert : batch.convert tree assignment = .ok (workbook, middle))
    (hother : FileTree.spelled tree.home assignment.output ∉ Plan.spelled tree.home rest) :
    batch.Converted tree (assignment :: rest) after := by
  obtain ⟨hprepare, hdeliver⟩ := convert_eq_ok.mp hconvert
  obtain ⟨location, hlocation, hnode, hmiddle⟩ := deliver_eq_ok.mp hdeliver
  obtain rfl := FileTree.eq_spelled_of_location? hlocation
  have hdirectories := sameDirectories_of_convert hconvert
  have hwritten := FileTree.node?_put hnode (.file (outputBytes batch.pretty workbook))
  rw [← hmiddle] at hwritten
  have hbetween := h.others
  rw [← hdirectories.home] at hbetween
  refine ⟨hdirectories.trans h.directories, fun inner hinner => ?_, fun place entry hentry => ?_⟩
  · rw [Plan.spelled, List.map_cons, List.mem_cons, not_or] at hinner
    rw [hbetween inner hinner.2, hwritten, if_neg hinner.1]
  · cases place with
    | zero =>
      obtain rfl := Option.some.inj hentry
      refine ⟨workbook, hprepare, ?_, ?_⟩
      · rw [← (hdirectories.trans h.directories).location?_eq, hlocation]
      · rw [hbetween _ hother, hwritten, if_pos rfl]
    | succ place =>
      rw [turn_succ hconvert, hdirectories.home]
      exact h.own place entry hentry

theorem filesFailed_le {tally final : Tally}
    (h : batch.convertAll tally tree plan = (after, .ok final)) :
    tally.filesFailed ≤ final.filesFailed := by
  induction plan generalizing tally tree with
  | nil =>
    obtain ⟨-, hfinal⟩ := Prod.mk.inj h
    rw [Except.ok.inj hfinal]
  | cons assignment rest ih =>
    rw [convertAll] at h
    split at h
    · have hrest := ih h
      exact hrest
    · split at h
      · cases (Prod.mk.inj h).2
      · exact Nat.le_of_succ_le (ih h)

/-- A plan without failures is converted, if its outputs spell different locations. -/
theorem converted_of_convertAll {tally final : Tally}
    (h : batch.convertAll tally tree plan = (after, .ok final))
    (hfailed : final.filesFailed = tally.filesFailed)
    (hnodup : (Plan.spelled tree.home plan).Nodup) :
    batch.Converted tree plan after ∧
      final.filesProcessed = tally.filesProcessed + plan.length := by
  induction plan generalizing tally tree with
  | nil =>
    obtain ⟨rfl, hfinal⟩ := Prod.mk.inj h
    rw [Except.ok.inj hfinal]
    exact ⟨converted_nil batch tree, rfl⟩
  | cons assignment rest ih =>
    rw [convertAll] at h
    obtain ⟨hother, hrest⟩ := List.nodup_cons.mp hnodup
    split at h
    · rename_i workbook middle hconvert
      rw [(sameDirectories_of_convert hconvert).home] at hrest
      obtain ⟨hconverted, hprocessed⟩ := ih h hfailed hrest
      refine ⟨hconverted.cons hconvert hother, ?_⟩
      rw [hprocessed, List.length_cons]
      exact Nat.succ_add_eq_add_succ ..
    · split at h
      · cases (Prod.mk.inj h).2
      · have hmore := filesFailed_le h
        rw [hfailed, Tally.addFailure] at hmore
        exact absurd hmore (Nat.not_succ_le_self _)

/-! ## Batches -/

theorem sameFiles_of_makeOutput {start : FileTree} (h : batch.makeOutput tree = .ok start) :
    tree.SameFiles start := by
  rw [makeOutput] at h
  split at h
  · rw [Except.ok.inj h]
    exact .refl start
  · split at h
    · cases h
    · rename_i made hmade
      obtain rfl := Except.ok.inj h
      exact .makeDirectories hmade

/-- A batch that comes to a summary has made its output directory, unless there is nothing to do,
and converted its plan. -/
theorem exists_start_of_run {files : List FilePath} {summary : Summary}
    (hfiles : Discovery.files tree batch.inputs = .ok files)
    (h : (batch.run tree).result = .ok summary) :
    ∃ start, (files = [] ∨ batch.makeOutput tree = .ok start) ∧ tree.SameFiles start ∧
      batch.convertAll {} start (Plan.outputs batch.output files) =
        ((batch.run tree).tree, .ok summary.tally) := by
  simp only [run, hfiles, convertFound] at h ⊢
  cases files with
  | nil =>
    obtain rfl := Except.ok.inj h
    exact ⟨tree, Or.inl rfl, .refl tree, rfl⟩
  | cons file rest =>
    simp only [List.isEmpty_cons, Bool.false_eq_true, if_false] at h ⊢
    cases hstart : batch.makeOutput tree with
    | error fault =>
      rw [hstart] at h
      cases h
    | ok start =>
      refine ⟨start, Or.inr rfl, sameFiles_of_makeOutput hstart, ?_⟩
      rw [hstart] at h
      dsimp only at h ⊢
      rcases hconvert : batch.convertAll {} start (Plan.outputs batch.output (file :: rest)) with
        ⟨after, fault | tally⟩
      · rw [hconvert] at h
        cases h
      · rw [hconvert] at h
        obtain rfl := Except.ok.inj h
        rfl

/-- The outputs of a batch are different paths; if two of them have their plain parts in common,
then they stand beside their inputs and one of them is opened by a dot.

A batch without failures has written as many files as it has processed, provided that the outputs
beside inputs do not share their plain parts and part by names only.  No other file has changed, and
each output holds what its workbook came to when it was its turn. -/
theorem run_writes_ownFiles {files : List FilePath}
    (hfiles : Discovery.files tree batch.inputs = .ok files) :
    (Plan.outputs batch.output files).Pairwise (fun first second =>
      first.output.same second.output = false ∧
      (first.output.plainParts = second.output.plainParts →
        batch.output = none ∧ first.output.opensHere ≠ second.output.opensHere)) ∧
    ∀ summary, (batch.run tree).result = .ok summary → summary.tally.filesFailed = 0 →
      (batch.output = none →
        FilePath.Level ((Plan.outputs none files).map Assignment.output) ∧
        (Plan.outputs none files).Pairwise fun first second =>
          first.output.plainParts ≠ second.output.plainParts) →
      ∃ (start : FileTree) (locations : List Location),
        (files = [] ∨ batch.makeOutput tree = .ok start) ∧
        locations.Nodup ∧ locations.length = summary.tally.filesProcessed ∧
        ((Plan.outputs batch.output files).map fun assignment =>
          (batch.run tree).tree.location? assignment.output) = locations.map some ∧
        (∀ location ∉ locations, ∀ content,
          (batch.run tree).tree.node? location = some (.file content) ↔
            tree.node? location = some (.file content)) ∧
        ∀ place assignment, (Plan.outputs batch.output files)[place]? = some assignment →
          ∃ workbook,
            prepare batch.rules (batch.turn start (Plan.outputs batch.output files) place)
              assignment.input = .ok workbook ∧
            (batch.run tree).tree.read assignment.output =
              .ok (outputBytes batch.pretty workbook) := by
  have hplain := Plan.opensHere_ne_of_plainParts batch.output files
  refine ⟨(Plan.outputs_differ batch.output files).and hplain, ?_⟩
  intro summary hrun hfailed hbeside
  obtain ⟨start, hstart, hsame, hconvert⟩ := exists_start_of_run hfiles hrun
  have hnodup : (Plan.spelled start.home (Plan.outputs batch.output files)).Nodup := by
    cases houtput : batch.output with
    | none => exact Plan.nodup_spelled start.home (hbeside houtput).1 (hbeside houtput).2
    | some directory =>
      rw [houtput] at hplain
      refine Plan.nodup_spelled start.home (Plan.level_outputs directory files) ?_
      refine hplain.imp fun hone heq => ?_
      cases (hone heq).1
  obtain ⟨hconverted, hprocessed⟩ := converted_of_convertAll hconvert hfailed hnodup
  refine ⟨start, _, hstart, hnodup, ?_, ?_, fun location hlocation content => ?_,
    fun place assignment hplace => ?_⟩
  · rw [hprocessed, Plan.spelled, List.length_map]
    exact (Nat.zero_add _).symm
  · rw [Plan.spelled, List.map_map]
    refine List.map_congr_left fun assignment hmem => ?_
    obtain ⟨place, hplace⟩ := List.mem_iff_getElem?.mp hmem
    obtain ⟨-, -, hlocation, -⟩ := hconverted.own place assignment hplace
    exact hlocation
  · rw [hconverted.others location hlocation]
    exact (hsame.file location content).symm
  · obtain ⟨workbook, hprepare, hlocation, hnode⟩ := hconverted.own place assignment hplace
    refine ⟨workbook, hprepare, eq_ok_of_toOption ?_⟩
    rw [FileTree.toOption_read, hlocation, Option.bind_some, hnode]
    rfl

/-- A workbook with one sheet in it. -/
def rosterBook : String :=
  "\x7b\"sheets\":[\x7b\"name\":\"y\",\"rows\":" ++
    "[[\"#var\",\"Name\"],[\"#type\",\"string\"],[\"\",\"Bob\"]]\x7d]\x7d"

/-- Two workbooks of one name. -/
def rosterTree : FileTree where
  home := ["home"]
  nodes := [
    (["home", "x.csv"], .file (Text.Utf8.ofString "#var,Name\n#type,string\n,Ann\n")),
    (["home", "x.json"], .file (Text.Utf8.ofString rosterBook))]

/-- The conversion of some inputs, each of them beside it. -/
def besideInputs (inputs : List FilePath) (rules : Rules) : Batch :=
  { inputs := inputs, output := none, rules := rules }

/-- The second output is numbered, and both files are there in the end. -/
theorem roster_run_writes_ownFiles : ∃ (batch : Batch) (summary : Summary),
    Discovery.files rosterTree batch.inputs = .ok [⟨"x.csv"⟩, ⟨"x.json"⟩] ∧
    (batch.run rosterTree).result = .ok summary ∧ summary.tally = ⟨2, 0, 2, 0, 2⟩ ∧
    ∃ locations : List Location, locations.Nodup ∧ locations.length = 2 ∧
      [FilePath.mk "x.records.json", ⟨"x_2.records.json"⟩].map
        (batch.run rosterTree).tree.location? = locations.map some ∧
      ∀ location ∉ locations, ∀ content,
        (batch.run rosterTree).tree.node? location = some (.file content) ↔
          rosterTree.node? location = some (.file content) := by
  have hfiles : (Discovery.files rosterTree [⟨"x.json"⟩, ⟨"x.csv"⟩]).toOption =
      some [⟨"x.csv"⟩, ⟨"x.json"⟩] := by
    decide +kernel
  have houtputs : (Plan.outputs none [⟨"x.csv"⟩, ⟨"x.json"⟩]).map Assignment.output =
      [⟨"x.records.json"⟩, ⟨"x_2.records.json"⟩] := by
    decide +kernel
  have hplain : (Plan.outputs none [⟨"x.csv"⟩, ⟨"x.json"⟩]).Pairwise fun first second =>
      first.output.plainParts ≠ second.output.plainParts := by
    decide +kernel
  have hlevel : FilePath.Level
      ((Plan.outputs none [⟨"x.csv"⟩, ⟨"x.json"⟩]).map Assignment.output) := by
    have hnames : ∀ path ∈ [FilePath.mk "x.records.json", ⟨"x_2.records.json"⟩],
        path.plainParts = [.name path.text] := by
      decide +kernel
    rw [houtputs]
    exact ⟨[], fun path hpath => ⟨[path.text], hnames path hpath⟩⟩
  have hrun : ((Rules.ofSettings {}).toOption.bind fun rules =>
      ((besideInputs [⟨"x.json"⟩, ⟨"x.csv"⟩] rules).run rosterTree).result.toOption.map
        Summary.tally) = some ⟨2, 0, 2, 0, 2⟩ := by
    decide +kernel
  obtain ⟨rules, -, hrun⟩ := Option.bind_eq_some_iff.mp hrun
  obtain ⟨summary, hsummary, htally⟩ := Option.map_eq_some_iff.mp hrun
  have hfound : Discovery.files rosterTree (besideInputs [⟨"x.json"⟩, ⟨"x.csv"⟩] rules).inputs =
      .ok [⟨"x.csv"⟩, ⟨"x.json"⟩] := eq_ok_of_toOption hfiles
  have hresult := eq_ok_of_toOption hsummary
  obtain ⟨-, hown⟩ := run_writes_ownFiles hfound
  obtain ⟨-, locations, -, hnodup, hlength, hlocations, hothers, -⟩ :=
    hown summary hresult (by rw [htally]) fun _ => ⟨hlevel, hplain⟩
  refine ⟨_, summary, hfound, hresult, htally, locations, hnodup, ?_, ?_, hothers⟩
  · rw [hlength, htally]
  · rw [← hlocations, ← houtputs, List.map_map]
    rfl

/-- When one of the inputs is written with a dot, the second output replaces the first one. -/
theorem exists_output_replaced : ∃ (batch : Batch) (files : List FilePath)
    (summary : Summary),
    Discovery.files rosterTree batch.inputs = .ok files ∧
    (batch.run rosterTree).result = .ok summary ∧
    summary.tally.filesProcessed = 2 ∧ summary.tally.filesFailed = 0 ∧
    ¬ (Plan.outputs batch.output files).Pairwise (fun first second =>
      first.output.plainParts ≠ second.output.plainParts) ∧
    (rosterTree.written (batch.run rosterTree).tree).map Prod.fst =
      [["home", "x.records.json"]] := by
  have hfiles : (Discovery.files rosterTree [⟨"./x.csv"⟩, ⟨"x.json"⟩]).toOption =
      some [⟨"./x.csv"⟩, ⟨"x.json"⟩] := by
    decide +kernel
  have hplain : ¬ (Plan.outputs none [⟨"./x.csv"⟩, ⟨"x.json"⟩]).Pairwise fun first second =>
      first.output.plainParts ≠ second.output.plainParts := by
    decide +kernel
  have hrun : ((Rules.ofSettings {}).toOption.bind fun rules =>
      let outcome := (besideInputs [⟨"./x.csv"⟩, ⟨"x.json"⟩] rules).run rosterTree
      outcome.result.toOption.map fun summary =>
        (summary.tally, (rosterTree.written outcome.tree).map Prod.fst)) =
      some (⟨2, 0, 2, 0, 2⟩, [["home", "x.records.json"]]) := by
    decide +kernel
  obtain ⟨rules, -, hrun⟩ := Option.bind_eq_some_iff.mp hrun
  obtain ⟨summary, hsummary, hfacts⟩ := Option.map_eq_some_iff.mp hrun
  obtain ⟨htally, hwritten⟩ := Prod.mk.inj hfacts
  refine ⟨_, _, summary, eq_ok_of_toOption hfiles, eq_ok_of_toOption hsummary, ?_, ?_, hplain,
    hwritten⟩
  · rw [htally]
  · rw [htally]

end Batch

end SheetCompiler
