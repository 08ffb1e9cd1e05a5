import SheetCompiler.Batch.Convert
import SheetCompiler.Proofs.FileWrites

/-!
# Converting a file

Of a tree, reading an input sees the content at the location of the input only
(`Workbook.toOption_load`, `Batch.toOption_prepare`), and delivering a workbook changes the location
of the output only (`Batch.deliver_eq_ok`).  Whether a file can be converted by itself, and to what,
is `Batch.converts?`.
-/

namespace SheetCompiler

open Text (Bytes)

namespace Workbook

/-- The sheets in the content of a file. -/
def parse? (path : FilePath) (content : Bytes) : Option (List Grid) :=
  match WorkbookFormat.ofPath? path with
  | some .csv => (Csv.read (path.stem?.getD unnamed) content).toOption.map fun grid => [grid]
  | some .json => (JsonBook.read content).toOption
  | none => none

/-- What is loaded depends on the content of the file alone. -/
theorem toOption_load (tree : FileTree) (path : FilePath) :
    (load tree path).toOption =
      if tree.exists? path then (tree.read path).toOption.bind (parse? path) else none := by
  have hcsv : (loadCsv tree path).toOption = (tree.read path).toOption.bind fun content =>
      (Csv.read (path.stem?.getD unnamed) content).toOption.map fun grid => [grid] := by
    unfold loadCsv
    cases tree.read path with
    | error fault => rfl
    | ok content =>
      dsimp only [Except.toOption, Option.bind_some]
      cases Csv.read (path.stem?.getD unnamed) content <;> rfl
  have hjson : (loadJson tree path).toOption = (tree.read path).toOption.bind fun content =>
      (JsonBook.read content).toOption := by
    unfold loadJson
    cases tree.read path with
    | error fault => rfl
    | ok content =>
      dsimp only [Except.toOption, Option.bind_some]
      cases JsonBook.read content <;> rfl
  unfold load parse?
  cases tree.exists? path with
  | false => rfl
  | true =>
    cases WorkbookFormat.ofPath? path with
    | none => cases tree.read path <;> rfl
    | some format =>
      cases format with
      | csv => exact hcsv
      | json => exact hjson

end Workbook

namespace Batch

variable {batch : Batch} {rules : Rules} {pretty : Bool} {tree other : FileTree}

/-- What is written for a workbook. -/
def outputBytes (pretty : Bool) (workbook : CompiledWorkbook) : Bytes :=
  Text.Utf8.ofString (outputText pretty workbook)

/-- An input is read alike in trees that hold the same at its location. -/
theorem toOption_prepare {input : FilePath}
    (hlocation : tree.location? input = other.location? input)
    (hnode : ∀ location, tree.location? input = some location →
      tree.node? location = other.node? location) :
    (prepare rules tree input).toOption = (prepare rules other input).toOption := by
  have hfound : (tree.location? input).bind tree.node? =
      (other.location? input).bind other.node? := by
    rw [← hlocation]
    exact Option.bind_congr hnode
  have hexists : tree.exists? input = other.exists? input := by
    rw [FileTree.exists?_eq, FileTree.exists?_eq, hfound]
  have hread : (tree.read input).toOption = (other.read input).toOption := by
    rw [FileTree.toOption_read, FileTree.toOption_read, hfound]
  have hprepare : ∀ tree : FileTree, (prepare rules tree input).toOption =
      (Workbook.load tree input).toOption.map fun grids =>
        CompiledWorkbook.ofSheets rules (grids.map Grid.worksheet) := by
    intro tree
    rw [prepare]
    cases Workbook.load tree input <;> rfl
  rw [hprepare tree, hprepare other, Workbook.toOption_load, Workbook.toOption_load, hexists, hread]

/-- A workbook is delivered where its output leads to, unless there is a directory. -/
theorem deliver_eq_ok {output : FilePath} {workbook : CompiledWorkbook} {after : FileTree} :
    deliver pretty tree output workbook = .ok after ↔
      ∃ location, tree.location? output = some location ∧
        tree.node? location ≠ some .directory ∧
        after = tree.put location (.file (outputBytes pretty workbook)) := by
  rw [← FileTree.write_eq_ok, deliver, outputBytes]
  cases tree.write output (Text.Utf8.ofString (outputText pretty workbook)) with
  | error fault => simp
  | ok found => simp

theorem convert_eq_ok {assignment : Assignment} {workbook : CompiledWorkbook} {after : FileTree} :
    batch.convert tree assignment = .ok (workbook, after) ↔
      prepare batch.rules tree assignment.input = .ok workbook ∧
        deliver batch.pretty tree assignment.output workbook = .ok after := by
  unfold convert
  cases prepare batch.rules tree assignment.input with
  | error fault => simp
  | ok found =>
    dsimp only
    cases hdeliver : deliver batch.pretty tree assignment.output found with
    | error fault =>
      simp only [reduceCtorEq, Except.ok.injEq, false_iff, not_and]
      rintro rfl
      simp [hdeliver]
    | ok written =>
      simp only [Except.ok.injEq, Prod.mk.injEq]
      refine and_congr_right ?_
      rintro rfl
      simp [hdeliver]

theorem sameDirectories_of_convert {assignment : Assignment} {workbook : CompiledWorkbook}
    {after : FileTree} (h : batch.convert tree assignment = .ok (workbook, after)) :
    tree.SameDirectories after := by
  obtain ⟨location, -, hnode, rfl⟩ := deliver_eq_ok.mp (convert_eq_ok.mp h).2
  exact .put hnode _

/-- The workbook that a file is converted to, if it can be. -/
def converts? (batch : Batch) (tree : FileTree) (assignment : Assignment) :
    Option CompiledWorkbook :=
  (batch.convert tree assignment).toOption.map Prod.fst

theorem converts?_eq (batch : Batch) (tree : FileTree) (assignment : Assignment) :
    batch.converts? tree assignment =
      (prepare batch.rules tree assignment.input).toOption.bind fun workbook =>
        (deliver batch.pretty tree assignment.output workbook).toOption.map fun _ => workbook := by
  unfold converts? convert
  cases prepare batch.rules tree assignment.input with
  | error fault => rfl
  | ok workbook =>
    dsimp only [Except.toOption, Option.bind_some]
    cases deliver batch.pretty tree assignment.output workbook <;> rfl

/-- A file is converted if it can be read and its output be written. -/
theorem converts?_eq_some {assignment : Assignment} {workbook : CompiledWorkbook} :
    batch.converts? tree assignment = some workbook ↔
      prepare batch.rules tree assignment.input = .ok workbook ∧
        ∃ location, tree.location? assignment.output = some location ∧
          tree.node? location ≠ some .directory := by
  rw [converts?_eq, Option.bind_eq_some_iff]
  constructor
  · rintro ⟨found, hprepare, hdeliver⟩
    obtain ⟨after, hafter, rfl⟩ := Option.map_eq_some_iff.mp hdeliver
    obtain ⟨location, hlocation, hnode, -⟩ := deliver_eq_ok.mp (eq_ok_of_toOption hafter)
    exact ⟨eq_ok_of_toOption hprepare, location, hlocation, hnode⟩
  · rintro ⟨hprepare, location, hlocation, hnode⟩
    have hdeliver : deliver batch.pretty tree assignment.output workbook = .ok _ :=
      deliver_eq_ok.mpr ⟨location, hlocation, hnode, rfl⟩
    exact ⟨workbook, by rw [hprepare]; rfl, by rw [hdeliver]; rfl⟩

end Batch

end SheetCompiler
