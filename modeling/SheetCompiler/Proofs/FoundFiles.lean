import SheetCompiler.Batch.Discovery
import SheetCompiler.Proofs.PathOrder
import SheetCompiler.Proofs.PatternMatches

/-!
# The files that are found

Each input is a file, a directory or a pattern, and gives files of its own: a file gives itself, a
directory the workbooks at any depth below it, and a pattern the workbooks that it matches
(`Discovery.Gives`).  The files of all inputs are put in order together, so it makes no difference in what
order the inputs come, how often one of them is given, and whether the same file is given by several of
them (`Discovery.files_same_inputs`).

A file is given with the path that leads to it from its input.  Where that path may be written in several
ways, the first writing is kept; the parts are the same.  Inputs are told apart by how they are written: a
separator behind the name of a file changes no part, but leads to no file.
-/

namespace SheetCompiler

namespace Discovery

open FileTree (Writing)

variable {tree : FileTree} {input path : FilePath} {inputs others found own : List FilePath}

/-! ## Single inputs -/

/-- There are files to be looked for: a file, a directory, or a pattern that can be read. -/
def IsUsable (tree : FileTree) (input : FilePath) : Prop :=
  tree.isFile input = true ∨ tree.isDirectory input = true ∨
    FilePattern.isPattern input = true ∧ ∃ reading, FilePattern.read input.text = .ok reading

/-- A file that an input gives. -/
inductive Gives (tree : FileTree) (input : FilePath) : FilePath → Prop
  | file (h : tree.isFile input = true) : Gives tree input input
  | below {names : List String} (h : tree.isDirectory input = true) (hne : names ≠ [])
      (hnames : ∀ name ∈ names, FilePath.IsFileName name)
      (hworkbook : isWorkbook tree (Writing.joined.reach input names) = true) :
      Gives tree input (Writing.joined.reach input names)
  | matched {reading : FilePattern.Reading} {path : FilePath} (hfile : tree.isFile input = false)
      (hdirectory : tree.isDirectory input = false) (hpattern : FilePattern.isPattern input = true)
      (hread : FilePattern.read input.text = .ok reading) (hplain : reading.directories = false)
      (hleads : FilePattern.Leads tree reading.parts reading.start path)
      (hworkbook : isWorkbook tree path = true) : Gives tree input path

theorem exists_ofInput : (∃ own, ofInput tree input = .ok own) ↔ IsUsable tree input := by
  rw [ofInput, IsUsable]
  cases tree.isFile input with
  | true => exact iff_of_true ⟨_, rfl⟩ (Or.inl rfl)
  | false =>
    cases tree.isDirectory input with
    | true => exact iff_of_true ⟨_, rfl⟩ (Or.inr (Or.inl rfl))
    | false =>
      rw [ofPattern]
      cases FilePattern.isPattern input with
      | false => simp
      | true =>
        cases FilePattern.read input.text with
        | error fault => simp
        | ok reading => simp

theorem isFile_of_isWorkbook (h : isWorkbook tree path = true) : tree.isFile path = true :=
  (Bool.and_eq_true_iff.mp h).1

theorem mem_inDirectory_iff (h : tree.WellNamed) (hdirectory : tree.isDirectory input = true) :
    path ∈ inDirectory tree input ↔ ∃ names, names ≠ [] ∧
      (∀ name ∈ names, FilePath.IsFileName name) ∧ path = Writing.joined.reach input names ∧
        isWorkbook tree path = true := by
  have hfilled := FileTree.text_ne_empty_of_exists? (FileTree.exists?_of_isDirectory hdirectory)
  rw [inDirectory, List.mem_filter, FileTree.mem_below_depth_iff h hfilled]
  constructor
  · rintro ⟨⟨names, hne, hnames, hpath, -⟩, hworkbook⟩
    exact ⟨names, hne, hnames, hpath, hworkbook⟩
  · rintro ⟨names, hne, hnames, hpath, hworkbook⟩
    exact ⟨⟨names, hne, hnames, hpath,
      FileTree.exists?_of_isFile (isFile_of_isWorkbook hworkbook)⟩, hworkbook⟩

theorem mem_ofPattern_iff (h : tree.WellNamed) (hown : ofPattern tree input = .ok own) :
    path ∈ own ↔ FilePattern.isPattern input = true ∧ ∃ reading,
      FilePattern.read input.text = .ok reading ∧ reading.directories = false ∧
        FilePattern.Leads tree reading.parts reading.start path ∧ isWorkbook tree path = true := by
  rw [ofPattern] at hown
  split at hown
  · cases hown
  · rename_i hpattern
    rw [Bool.not_eq_true, Bool.not_eq_false'] at hpattern
    split at hown
    · cases hown
    · rename_i reading hread
      rw [← Except.ok.inj hown, List.mem_filter, FilePattern.mem_expand_iff h hread,
        and_iff_right hpattern]
      constructor
      · rintro ⟨⟨hleads, hdirectories⟩, hworkbook⟩
        refine ⟨reading, hread, Bool.eq_false_iff.mpr fun hends => ?_, hleads, hworkbook⟩
        -- a pattern that a separator ends matches directories only
        have hnot := FileTree.isDirectory_of_isFile (isFile_of_isWorkbook hworkbook)
        rw [hdirectories hends] at hnot
        cases hnot
      · rintro ⟨other, hother, hplain, hleads, hworkbook⟩
        obtain rfl : reading = other := Except.ok.inj (hread.symm.trans hother)
        exact ⟨⟨hleads, fun hends => by rw [hplain] at hends; cases hends⟩, hworkbook⟩

/-- The files of an input are those that it gives. -/
theorem mem_ofInput_iff (h : tree.WellNamed) (hown : ofInput tree input = .ok own) :
    path ∈ own ↔ Gives tree input path := by
  rw [ofInput] at hown
  split at hown
  · rename_i hfile
    have hnot := FileTree.isDirectory_of_isFile hfile
    rw [← Except.ok.inj hown, List.mem_singleton]
    constructor
    · rintro rfl
      exact .file hfile
    · intro hgives
      cases hgives with
      | file => rfl
      | below hdirectory => rw [hnot] at hdirectory; cases hdirectory
      | matched hnone => rw [hfile] at hnone; cases hnone
  · rename_i hfile
    rw [Bool.not_eq_true] at hfile
    split at hown
    · rename_i hdirectory
      rw [← Except.ok.inj hown, mem_inDirectory_iff h hdirectory]
      constructor
      · rintro ⟨names, hne, hnames, rfl, hworkbook⟩
        exact .below hdirectory hne hnames hworkbook
      · intro hgives
        cases hgives with
        | file hsome => rw [hfile] at hsome; cases hsome
        | below _ hne hnames hworkbook => exact ⟨_, hne, hnames, rfl, hworkbook⟩
        | matched _ hnone => rw [hdirectory] at hnone; cases hnone
    · rename_i hdirectory
      rw [Bool.not_eq_true] at hdirectory
      rw [mem_ofPattern_iff h hown]
      constructor
      · rintro ⟨hpattern, reading, hread, hplain, hleads, hworkbook⟩
        exact .matched hfile hdirectory hpattern hread hplain hleads hworkbook
      · intro hgives
        cases hgives with
        | file hsome => rw [hfile] at hsome; cases hsome
        | below hsome => rw [hdirectory] at hsome; cases hsome
        | matched _ _ hpattern hread hplain hleads hworkbook =>
          exact ⟨hpattern, _, hread, hplain, hleads, hworkbook⟩

/-! ## All inputs -/

theorem exists_collect : (∃ found, collect tree inputs = .ok found) ↔
    ∀ input ∈ inputs, ∃ own, ofInput tree input = .ok own := by
  induction inputs with
  | nil => exact iff_of_true ⟨[], rfl⟩ (by simp)
  | cons input rest ih =>
    rw [List.forall_mem_cons, ← ih, collect]
    cases ofInput tree input with
    | error fault => simp
    | ok own => cases collect tree rest <;> simp

theorem mem_collect_iff (h : collect tree inputs = .ok found) : path ∈ found ↔
    ∃ input ∈ inputs, ∃ own, ofInput tree input = .ok own ∧ path ∈ own := by
  induction inputs generalizing found with
  | nil =>
    rw [← Except.ok.inj h]
    simp
  | cons input rest ih =>
    rw [collect] at h
    split at h
    · cases h
    · rename_i own hown
      split at h
      · cases h
      · rename_i later hlater
        rw [← Except.ok.inj h, List.mem_append, ih hlater]
        simp [hown]

theorem files_eq_ok_iff : files tree inputs = .ok found ↔
    ∃ gathered, collect tree inputs = .ok gathered ∧ found = FilePath.sorted gathered := by
  rw [files]
  cases collect tree inputs <;> simp [eq_comm]

/-- Inputs are gathered if each of them can be used. -/
theorem exists_files : (∃ found, files tree inputs = .ok found) ↔
    ∀ input ∈ inputs, IsUsable tree input := by
  simp only [← exists_ofInput, ← exists_collect, files_eq_ok_iff]
  constructor
  · rintro ⟨_, gathered, hgathered, -⟩
    exact ⟨gathered, hgathered⟩
  · rintro ⟨gathered, hgathered⟩
    exact ⟨_, gathered, hgathered, rfl⟩

theorem mem_collect_congr (h : ∀ input, input ∈ others ↔ input ∈ inputs)
    (hfound : collect tree inputs = .ok found) {alike : List FilePath}
    (halike : collect tree others = .ok alike) : path ∈ alike ↔ path ∈ found := by
  rw [mem_collect_iff hfound, mem_collect_iff halike]
  exact exists_congr fun input => and_congr_left' (h input)

/-- The files that are found depend on nothing but which inputs are given.  The same inputs in another
order, and any of them repeated, are refused together or give the same paths: files are found exactly if
each input is a file, a directory, or a pattern that can be read.  The paths come in strictly increasing
order, so no two of them are the same.  In a tree of files with proper names they are, up to the way they
are written, the inputs that are files, the workbooks at any depth below those that are directories, and
the workbooks that match those that are patterns. -/
theorem files_same_inputs (tree : FileTree) {inputs others : List FilePath}
    (h : ∀ input, input ∈ others ↔ input ∈ inputs) :
    ((∃ found, files tree others = .ok found) ↔ ∃ found, files tree inputs = .ok found) ∧
    ((∃ found, files tree inputs = .ok found) ↔ ∀ input ∈ inputs, IsUsable tree input) ∧
    ∀ found, files tree inputs = .ok found →
      (∃ alike, files tree others = .ok alike ∧
        alike.map FilePath.parts = found.map FilePath.parts) ∧
      FilePath.Increasing found ∧
      found.Pairwise (fun path other => ¬ path.same other = true) ∧
      (tree.WellNamed →
        (∀ path ∈ found, ∃ input ∈ inputs, Gives tree input path) ∧
        ∀ input ∈ inputs, ∀ path, Gives tree input path →
          ∃ kept ∈ found, kept.same path = true) := by
  have hboth : (∃ found, files tree others = .ok found) ↔
      ∃ found, files tree inputs = .ok found := by
    rw [exists_files, exists_files]
    exact forall_congr' fun input => imp_congr_left (h input)
  refine ⟨hboth, exists_files, fun found hfound => ?_⟩
  obtain ⟨gathered, hgathered, rfl⟩ := files_eq_ok_iff.mp hfound
  have hincreasing := FilePath.increasing_sorted gathered
  refine ⟨?_, hincreasing, hincreasing.not_same, fun hnamed => ⟨?_, ?_⟩⟩
  · obtain ⟨alike, halike⟩ := hboth.mpr ⟨_, hfound⟩
    refine ⟨alike, halike, ?_⟩
    obtain ⟨regathered, hregathered, rfl⟩ := files_eq_ok_iff.mp halike
    exact FilePath.map_parts_sorted_congr fun path => mem_collect_congr h hgathered hregathered
  · intro path hpath
    obtain ⟨input, hinput, own, hown, hmem⟩ :=
      (mem_collect_iff hgathered).mp (FilePath.mem_of_mem_sorted hpath)
    exact ⟨input, hinput, (mem_ofInput_iff hnamed hown).mp hmem⟩
  · intro input hinput path hgives
    obtain ⟨own, hown⟩ := exists_ofInput.mpr (exists_files.mp ⟨_, hfound⟩ input hinput)
    exact FilePath.exists_mem_sorted ((mem_collect_iff hgathered).mpr
      ⟨input, hinput, own, hown, (mem_ofInput_iff hnamed hown).mpr hgives⟩)

/-- Workbooks in a directory and below it, and a file of another kind. -/
def plantTree : FileTree where
  nodes := [(["data"], .directory), (["data", "b.CSV"], .file []), (["data", "a.json"], .file []),
    (["data", "old"], .directory), (["data", "old", "c.csv"], .file []),
    (["data", "old", "notes.txt"], .file [])]

/-- A directory, a pattern for files in it, and two files, one of which the others give as well. -/
def plantInputs : List FilePath :=
  [⟨"data"⟩, ⟨"data/*.[cC]*"⟩, ⟨"data//b.CSV"⟩, ⟨"data/old/notes.txt"⟩]

/-- The files that they give.  The path of the file that is given three times is written as it is written
below the directory, the first of its inputs. -/
def plantFound : List FilePath :=
  [⟨"data/a.json"⟩, ⟨"data/b.CSV"⟩, ⟨"data/old/c.csv"⟩, ⟨"data/old/notes.txt"⟩]

/-- In another order, and with each of them repeated, the inputs give paths with the same parts. -/
theorem plantInputs_files :
    (∀ input, input ∈ plantInputs.reverse ++ plantInputs ↔ input ∈ plantInputs) ∧
    plantTree.WellNamed ∧
    files plantTree plantInputs = .ok plantFound ∧
    (∃ alike, files plantTree (plantInputs.reverse ++ plantInputs) = .ok alike ∧
      alike.map FilePath.parts = plantFound.map FilePath.parts) ∧
    (∃ input ∈ plantInputs, Gives plantTree input ⟨"data/old/c.csv"⟩) ∧
    ∀ input ∈ plantInputs, IsUsable plantTree input := by
  have hsame : ∀ input, input ∈ plantInputs.reverse ++ plantInputs ↔ input ∈ plantInputs := by
    simp
  have hnamed : plantTree.WellNamed := ⟨by decide, by decide⟩
  have hfiles : files plantTree plantInputs = .ok plantFound := by decide +kernel
  obtain ⟨-, husable, hall⟩ := files_same_inputs plantTree hsame
  obtain ⟨halike, -, -, hcontent⟩ := hall plantFound hfiles
  exact ⟨hsame, hnamed, hfiles, halike, (hcontent hnamed).1 ⟨"data/old/c.csv"⟩ (by decide),
    husable.mp ⟨_, hfiles⟩⟩

end Discovery

end SheetCompiler
