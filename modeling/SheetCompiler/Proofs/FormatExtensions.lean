import SheetCompiler.Batch.Discovery
import SheetCompiler.Proofs.DirectoryContents
import SheetCompiler.Proofs.LowercaseParts
import SheetCompiler.Workbook.Load

/-!
# Extensions of workbook files

A file is taken for a workbook by its extension with only the letters from A to Z put into lower case,
and its format is told by the extension in lower case altogether.  The second rule moves many more
characters, and one of them moves onto a letter from A to Z: the Kelvin sign is a k in lower case.  A
dotted capital I becomes a small i as well, but with a dot of its own behind it.

So the two rules agree on every word of small letters other than k (`Text.lowercase_eq_iff`).  That is
all there is in the extensions of the formats, and a file that is found is never refused for its format
later on.
-/

namespace SheetCompiler

namespace Text

variable {c d : Char} {code : Nat}

/-- The small letters from a to z, except the k. -/
def IsOwnLetter (d : Char) : Prop := 'a'.toNat ≤ d.toNat ∧ d.toNat ≤ 'z'.toNat ∧ d ≠ 'k'

instance (d : Char) : Decidable (IsOwnLetter d) := inferInstanceAs (Decidable (_ ∧ _ ∧ _))

/-! ## Single characters -/

/-- Of the first 128 characters, the capital letters move and no others. -/
theorem apply_of_lt (h : code < 128) : CaseRun.apply lowerRuns code =
    if 'A'.toNat ≤ code ∧ code ≤ 'Z'.toNat then code + 32 else code := by
  have hruns : lowerRuns = ⟨'A'.toNat, 'Z'.toNat, 1, 32⟩ :: lowerRuns.tail := rfl
  have hbeyond : ∀ run ∈ lowerRuns.tail, 128 ≤ run.first := by decide +kernel
  have hlater : lowerRuns.tail.find? (fun run => run.covers code) = none := by
    refine List.find?_eq_none.mpr fun run hrun => ?_
    have hfirst := hbeyond run hrun
    simp only [CaseRun.covers, Bool.and_eq_true, decide_eq_true_eq]
    omega
  rw [CaseRun.apply, hruns, List.find?_cons, hlater]
  have hcovers : CaseRun.covers ⟨'A'.toNat, 'Z'.toNat, 1, 32⟩ code = true ↔
      'A'.toNat ≤ code ∧ code ≤ 'Z'.toNat := by
    simp only [CaseRun.covers, Nat.mod_one, beq_self_eq_true, Bool.and_true, Bool.and_eq_true,
      decide_eq_true_eq]
  by_cases hletter : 'A'.toNat ≤ code ∧ code ≤ 'Z'.toNat
  · rw [hcovers.mpr hletter, if_pos hletter]
    rfl
  · rw [Bool.eq_false_iff.mpr (mt hcovers.mp hletter), if_neg hletter]

/-- No character from beyond the first 128 moves among them, except for the Kelvin sign. -/
theorem le_apply_or_eq (h : 128 ≤ code) :
    128 ≤ CaseRun.apply lowerRuns code ∨ CaseRun.apply lowerRuns code = 'k'.toNat := by
  have hruns : ∀ run ∈ lowerRuns, run.last < 128 ∨ 128 ≤ (run.first : Int) + run.shift ∨
      run.first = run.last ∧ (run.first : Int) + run.shift = 'k'.toNat := by
    decide +kernel
  rw [CaseRun.apply]
  split
  · rename_i run hfind
    have hcovers := List.find?_some hfind
    simp only [CaseRun.covers, Bool.and_eq_true, decide_eq_true_eq] at hcovers
    have hrun := hruns run (List.mem_of_find?_eq_some hfind)
    omega
  · exact Or.inl h

theorem toNat_ne_of_isOwnLetter (h : IsOwnLetter d) : d.toNat ≠ 'k'.toNat :=
  fun hsame => h.2.2 (Char.toNat_inj.mp hsame)

theorem ofNat_eq_iff (h : IsOwnLetter d) : Char.ofNat code = d ↔ code = d.toNat := by
  constructor
  · rintro rfl
    by_cases hvalid : code.isValidChar
    · rw [Char.ofNat, dif_pos hvalid]
      rfl
    · rw [Char.ofNat, dif_neg hvalid] at h
      exact absurd h (by decide)
  · rintro rfl
    exact Char.ofNat_toNat d

theorem lowerLatin_eq_iff (h : IsOwnLetter d) : WorkbookFormat.lowerLatin c = d ↔
    (if 'A'.toNat ≤ c.toNat ∧ c.toNat ≤ 'Z'.toNat then c.toNat + 32 else c.toNat) = d.toNat := by
  rw [WorkbookFormat.lowerLatin]
  split
  · exact ofNat_eq_iff h
  · exact Char.toNat_inj.symm

/-- The lower case of a character is a letter of its own where its Latin lower case is. -/
theorem ofNat_apply_eq_iff (h : IsOwnLetter d) :
    Char.ofNat (CaseRun.apply lowerRuns c.toNat) = d ↔ WorkbookFormat.lowerLatin c = d := by
  have hkelvin := toNat_ne_of_isOwnLetter h
  have hletter : d.toNat < 128 := Nat.lt_of_le_of_lt h.2.1 (by decide)
  rw [ofNat_eq_iff h, lowerLatin_eq_iff h]
  by_cases hlow : c.toNat < 128
  · rw [apply_of_lt hlow]
  · have happly := le_apply_or_eq (Nat.le_of_not_lt hlow)
    have hupper : 'Z'.toNat < 128 := by decide
    rw [if_neg (by omega)]
    omega

/-! ## Words -/

/-- A character becomes one that is a letter of its own where the Latin lower case is the same letter,
or both lower cases hold a character that is none. -/
theorem lowerChar_cases (before : List Char) (c : Char) (after : List Char) :
    (∃ e, lowerChar before c after = [e] ∧
      ∀ d, IsOwnLetter d → (e = d ↔ WorkbookFormat.lowerLatin c = d)) ∨
    (¬ IsOwnLetter (WorkbookFormat.lowerLatin c) ∧
      ∃ e ∈ lowerChar before c after, ¬ IsOwnLetter e) := by
  by_cases hsigma : c = 'Σ'
  · rw [hsigma, lowerChar_sigma]
    exact Or.inr ⟨by decide, _, List.mem_singleton_self _, by split <;> decide⟩
  · rw [lowerChar, if_neg hsigma]
    by_cases hdotted : c = 'İ'
    · -- the dot above stays a character of its own
      rw [hdotted, if_pos rfl]
      exact Or.inr ⟨by decide, '\u0307', by decide, by decide⟩
    · rw [if_neg hdotted]
      exact Or.inl ⟨_, rfl, fun d hd => ofNat_apply_eq_iff hd⟩

/-- Both lower cases of a text are a word of letters of their own, or neither is. -/
theorem lowerFrom_eq_iff {word : List Char} (h : ∀ d ∈ word, IsOwnLetter d)
    (before text : List Char) :
    lowerFrom before text = word ↔ text.map WorkbookFormat.lowerLatin = word := by
  induction text generalizing before word with
  | nil => exact Iff.rfl
  | cons c rest ih =>
    rw [lowerFrom, List.map_cons]
    rcases lowerChar_cases before c rest with ⟨e, hchar, hsame⟩ | ⟨hlatin, e, he, hlower⟩
    · rw [hchar, List.singleton_append]
      cases word with
      | nil => exact iff_of_false (List.cons_ne_nil _ _) (List.cons_ne_nil _ _)
      | cons d word =>
        obtain ⟨hd, hword⟩ := List.forall_mem_cons.mp h
        rw [List.cons.injEq, List.cons.injEq, hsame d hd, ih hword]
    · refine iff_of_false (fun hword => ?_) fun hword => ?_
      · exact hlower (h e (hword ▸ List.mem_append_left _ he))
      · exact hlatin (h _ (hword ▸ List.mem_cons_self))

theorem lowercase_eq_iff {word : String} (h : ∀ d ∈ word.toList, IsOwnLetter d) (text : String) :
    lowercase text = word ↔ text.toList.map WorkbookFormat.lowerLatin = word.toList := by
  rw [← lowerFrom_eq_iff h, lowercase, ← String.toList_inj, String.toList_ofList]

end Text

namespace WorkbookFormat

/-! ## Formats -/

theorem isOwnLetter_of_mem_extension (format : WorkbookFormat) :
    ∀ d ∈ format.extension.toList, Text.IsOwnLetter d := by
  have hall : format.extension.toList.all (fun d => decide (Text.IsOwnLetter d)) = true := by
    cases format <;> decide
  intro d hd
  exact of_decide_eq_true (List.all_eq_true.mp hall d hd)

/-- The formats that the two rules find in an extension are the same. -/
theorem lowercase_eq_extension (extension : String) (format : WorkbookFormat) :
    (Text.lowercase extension == format.extension) =
      (extension.toList.map lowerLatin == format.extension.toList) := by
  rw [Bool.eq_iff_iff, beq_iff_eq, beq_iff_eq]
  exact Text.lowercase_eq_iff (isOwnLetter_of_mem_extension format) extension

/-- A file looks like a workbook if it has a format. -/
theorem isSupported_eq_isSome (path : FilePath) : isSupported path = (ofPath? path).isSome := by
  rw [isSupported, ofPath?]
  cases path.extension? with
  | none => rfl
  | some extension =>
    rw [Option.any_some, Option.bind_some, Bool.eq_iff_iff, List.any_eq_true, List.find?_isSome]
    simp only [lowercase_eq_extension]

end WorkbookFormat

namespace Workbook

variable {tree : FileTree} {path : FilePath}

/-- Loading a file does not fail for its format. -/
def KnowsFormat (tree : FileTree) (path : FilePath) : Prop :=
  ∀ other, load tree path ≠ .error (.unsupportedFormat other)

theorem loadCsv_ne_unsupported (tree : FileTree) (path other : FilePath) :
    loadCsv tree path ≠ .error (.unsupportedFormat other) := by
  unfold loadCsv
  split
  · nofun
  · split <;> nofun

theorem loadJson_ne_unsupported (tree : FileTree) (path other : FilePath) :
    loadJson tree path ≠ .error (.unsupportedFormat other) := by
  unfold loadJson
  split
  · nofun
  · split <;> nofun

/-- Loading a file fails for its format exactly if it has none. -/
theorem knowsFormat_iff (h : tree.isFile path = true) :
    KnowsFormat tree path ↔ WorkbookFormat.isSupported path = true := by
  rw [WorkbookFormat.isSupported_eq_isSome]
  unfold KnowsFormat load
  rw [FileTree.exists?_of_isFile h]
  cases WorkbookFormat.ofPath? path with
  | none => exact iff_of_false (fun hall => hall path rfl) (by decide)
  | some format =>
    refine iff_of_true (fun other => ?_) rfl
    cases format with
    | csv => exact loadCsv_ne_unsupported tree path other
    | json => exact loadJson_ne_unsupported tree path other

end Workbook

namespace Discovery

/-- The files that look like workbooks are those whose format is known when they are loaded. -/
theorem isWorkbook_iff {tree : FileTree} {path : FilePath} : isWorkbook tree path = true ↔
    tree.isFile path = true ∧ Workbook.KnowsFormat tree path := by
  rw [isWorkbook, Bool.and_eq_true]
  exact and_congr_right fun hfile => (Workbook.knowsFormat_iff hfile).symm

/-- A path looks like a workbook exactly if it has a format.  So of the files below a directory and of
those that a pattern matches, the ones that are found are those whose format is known when they are
loaded. -/
theorem found_iff_knowsFormat (tree : FileTree) :
    (∀ path, WorkbookFormat.isSupported path = true ↔
      ∃ format, WorkbookFormat.ofPath? path = some format) ∧
    (∀ directory path, path ∈ inDirectory tree directory ↔
      path ∈ tree.below tree.depth directory ∧ tree.isFile path = true ∧
        Workbook.KnowsFormat tree path) ∧
    ∀ pattern found, ofPattern tree pattern = .ok found →
      ∃ reading, FilePattern.read pattern.text = .ok reading ∧
        ∀ path, path ∈ found ↔ path ∈ FilePattern.expand tree reading ∧
          tree.isFile path = true ∧ Workbook.KnowsFormat tree path := by
  refine ⟨fun path => ?_, fun directory path => ?_, fun pattern found hfound => ?_⟩
  · rw [WorkbookFormat.isSupported_eq_isSome, Option.isSome_iff_exists]
  · rw [inDirectory, List.mem_filter, isWorkbook_iff]
  · rw [ofPattern] at hfound
    split at hfound
    · cases hfound
    · split at hfound
      · cases hfound
      · rename_i reading hreading
        refine ⟨reading, hreading, fun path => ?_⟩
        rw [← Except.ok.inj hfound, List.mem_filter, isWorkbook_iff]

/-- Files with extensions in other letters: capital ones, a long s, a Kelvin sign, and none behind the
dot. -/
def lettersTree : FileTree where
  nodes := [(["d"], .directory), (["d", "A.b.JSON"], .file []), (["d", "c.cſv"], .file []),
    (["d", "x.\u212Ason"], .file []), (["d", ".csv"], .file []), (["d", "y.csv."], .file [])]

/-- Only capital letters make no difference, and only that file can be loaded. -/
theorem letters_found : ofPattern lettersTree ⟨"d/*.*"⟩ = .ok [⟨"d/A.b.JSON"⟩] ∧
    Workbook.KnowsFormat lettersTree ⟨"d/A.b.JSON"⟩ ∧
    ¬ Workbook.KnowsFormat lettersTree ⟨"d/c.cſv"⟩ := by
  have hfound : ofPattern lettersTree ⟨"d/*.*"⟩ = .ok [⟨"d/A.b.JSON"⟩] := by decide +kernel
  have hmatches : (FilePattern.read "d/*.*").toOption.map (fun reading =>
      decide (⟨"d/c.cſv"⟩ ∈ FilePattern.expand lettersTree reading)) = some true := by
    decide +kernel
  obtain ⟨reading, hreading, hall⟩ := (found_iff_knowsFormat lettersTree).2.2 _ _ hfound
  rw [hreading, Except.toOption, Option.map_some, Option.some.injEq, decide_eq_true_eq] at hmatches
  refine ⟨hfound, ((hall _).mp List.mem_cons_self).2.2, fun hknows => ?_⟩
  have hmem := (hall _).mpr ⟨hmatches, by decide +kernel, hknows⟩
  exact absurd hmem (by decide)

end Discovery

end SheetCompiler
