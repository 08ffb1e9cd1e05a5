import SheetCompiler.Proofs.FileNames
import SheetCompiler.Proofs.FileWrites

/-!
# What paths denote

A dot is a part of a path only where it opens the path, so a path is told by its other parts, the
plain ones, and by whether it is opened by a dot (`FilePath.parts_eq_plainParts`).  Paths are
compared with the dot, and lead to the same file without it: where a path leads to, if it leads
anywhere, is spelled by its plain parts alone (`FileTree.eq_spelled_of_location?`).

The converse holds as long as there is no way up behind the point where paths part.  Of paths that
go on from common parts with names only (`FilePath.Level`), those with different plain parts spell
different locations (`FilePath.Level.plainParts_eq`).
-/

namespace SheetCompiler

namespace FilePath

/-! ## Plain parts -/

/-- The parts of a path except a dot. -/
def plainParts (path : FilePath) : List Part := path.parts.filter fun part => part != .here

/-- Whether the directory that a path starts from is spelled out. -/
def opensHere (path : FilePath) : Bool := path.parts.head? == some .here

theorem here_notMem_bodyParts (body : List Char) : .here ∉ bodyParts body := by
  intro hmem
  obtain ⟨piece, -, hpart⟩ := List.mem_map.mp hmem
  rw [partOf] at hpart
  split at hpart <;> cases hpart

/-- What opens a path is no part of its body in another way. -/
theorem bodyParts_opening (chars : List Char) : bodyParts (opening chars).2 = bodyParts chars := by
  fun_cases opening chars with
  | case1 rest => exact (bodyParts_append [] rest).symm
  | case2 => rfl
  | case3 rest => exact (bodyParts_append [] rest).trans (bodyParts_append ['.'] rest).symm
  | case4 => rfl

theorem parts_eq_plainParts (path : FilePath) :
    path.parts = (if path.opensHere then [.here] else []) ++ path.plainParts := by
  have hbody := here_notMem_bodyParts (opening path.text.toList).2
  have hplain : (bodyParts (opening path.text.toList).2).filter (fun part => part != .here) =
      bodyParts (opening path.text.toList).2 := by
    refine List.filter_eq_self.mpr fun part hpart => bne_iff_ne.mpr fun hhere => hbody ?_
    rwa [← hhere]
  unfold plainParts opensHere
  rw [parts_eq, List.filter_append, hplain]
  cases (opening path.text.toList).1 with
  | none =>
    rw [if_neg]
    · rfl
    · intro hfirst
      exact hbody (List.mem_of_head? (beq_iff_eq.mp hfirst))
  | some part => cases part <;> rfl

/-- Paths that are opened alike are the same if their plain parts are. -/
theorem same_of_plainParts {path other : FilePath} (hopen : path.opensHere = other.opensHere)
    (hplain : path.plainParts = other.plainParts) : path.same other = true := by
  rw [same, beq_iff_eq, parts_eq_plainParts, parts_eq_plainParts, hopen, hplain]

theorem plainParts_join (directory : FilePath) {name : String} (h : IsFileName name) :
    (directory.join ⟨name⟩).plainParts = directory.plainParts ++ [.name name] := by
  rw [plainParts, parts_join directory h, List.filter_append]
  rfl

theorem opensHere_join (directory : FilePath) {name : String} (h : IsFileName name) :
    (directory.join ⟨name⟩).opensHere = directory.opensHere := by
  rw [opensHere, opensHere, parts_join directory h]
  cases directory.parts <;> rfl

end FilePath

namespace FileTree

open FilePath (Part)

variable {tree : FileTree} {location : Location}

/-! ## Locations that paths spell -/

/-- Where a part of a path leads to from a directory. -/
def enter (location : Location) : Part → Location
  | .root => []
  | .here => location
  | .up => location.dropLast
  | .name name => location ++ [name]

/-- The location that a path spells, whatever is there. -/
def spelled (home : Location) (path : FilePath) : Location := path.plainParts.foldl enter home

theorem foldl_enter_parts (home : Location) (path : FilePath) :
    path.parts.foldl enter home = spelled home path := by
  rw [path.parts_eq_plainParts, spelled]
  split <;> rfl

theorem foldl_follow_pieces (pieces : List (List Char)) (location : Location) :
    ((pieces.filter fun piece => !piece.isEmpty).map stepOf).foldl follow location =
      ((pieces.filter fun piece => !FilePath.isIdle piece).map FilePath.partOf).foldl enter
        location := by
  induction pieces generalizing location with
  | nil => rfl
  | cons piece rest ih =>
    by_cases hempty : piece = []
    · rw [hempty]
      exact ih location
    · by_cases hdot : piece = ['.']
      · rw [hdot]
        exact ih location
      · have hidle : FilePath.isIdle piece = false := by
          simp [FilePath.isIdle, hempty, hdot]
        have hlead : follow location (stepOf piece) = enter location (FilePath.partOf piece) := by
          rw [stepOf, if_neg hdot, FilePath.partOf]
          split <;> rfl
        rw [List.filter_cons_of_pos (by simpa using hempty),
          List.filter_cons_of_pos (by simp [hidle]), List.map_cons, List.map_cons, List.foldl_cons,
          List.foldl_cons, hlead]
        exact ih _

/-- The opening of a path is a step from where it starts. -/
theorem foldl_enter_opening (tree : FileTree) (path : FilePath) :
    (FilePath.opening path.text.toList).1.toList.foldl enter tree.home = tree.start path := by
  rw [start, FilePath.isAbsolute]
  generalize path.text.toList = chars
  fun_cases FilePath.opening chars with
  | case1 rest => rfl
  | case2 => rfl
  | case3 rest => rfl
  | case4 _ hroot =>
    rw [if_neg]
    · rfl
    · intro hfirst
      obtain ⟨rest, hrest⟩ := List.head?_eq_some_iff.mp (beq_iff_eq.mp hfirst)
      exact hroot rest hrest

theorem foldl_follow_pieceSteps (tree : FileTree) (path : FilePath) :
    (pieceSteps path).foldl follow (tree.start path) = spelled tree.home path := by
  rw [← foldl_enter_parts, pieceSteps, foldl_follow_pieces, ← FilePath.bodyParts,
    FilePath.parts_eq, List.foldl_append, foldl_enter_opening, FilePath.bodyParts_opening]

theorem eq_foldl_follow {steps : List Step} {first : Location}
    (h : steps.foldlM tree.step? first = some location) : location = steps.foldl follow first := by
  induction steps generalizing first with
  | nil => exact (Option.some.inj h).symm
  | cons next rest ih =>
    rw [List.foldlM_cons, Option.bind_eq_bind, Option.bind_eq_some_iff] at h
    obtain ⟨second, hstep, hrest⟩ := h
    rw [step?, Option.ite_none_right_eq_some] at hstep
    rw [ih hrest, List.foldl_cons, Option.some.inj hstep.2]

/-- A path leads nowhere but to the location that it spells. -/
theorem eq_spelled_of_location? {path : FilePath} (h : tree.location? path = some location) :
    location = spelled tree.home path := by
  rw [location?, Option.ite_none_left_eq_some] at h
  have hwalk := h.2
  rw [toOption_walk] at hwalk
  rw [eq_foldl_follow hwalk, steps, List.foldl_append, foldl_follow_pieceSteps]
  split <;> rfl

end FileTree

namespace FilePath

/-! ## Paths that part by names only -/

/-- Paths go on from common parts with names. -/
def Level (paths : List FilePath) : Prop :=
  ∃ common : List Part, ∀ path ∈ paths, ∃ names : List String,
    path.plainParts = common ++ names.map Part.name

theorem foldl_enter_names (names : List String) (location : Location) :
    (names.map Part.name).foldl FileTree.enter location = location ++ names := by
  induction names generalizing location with
  | nil => exact (List.append_nil location).symm
  | cons name rest ih =>
    rw [List.map_cons, List.foldl_cons, ih, FileTree.enter, List.append_assoc,
      List.singleton_append]

/-- Such paths do not spell the same location in different ways. -/
theorem Level.plainParts_eq {paths : List FilePath} (h : Level paths) {path other : FilePath}
    (hpath : path ∈ paths) (hother : other ∈ paths) {home : Location}
    (hsame : FileTree.spelled home path = FileTree.spelled home other) :
    path.plainParts = other.plainParts := by
  obtain ⟨common, hcommon⟩ := h
  obtain ⟨names, hnames⟩ := hcommon path hpath
  obtain ⟨others, hothers⟩ := hcommon other hother
  rw [FileTree.spelled, FileTree.spelled, hnames, hothers, List.foldl_append, List.foldl_append,
    foldl_enter_names, foldl_enter_names] at hsame
  rw [hnames, hothers, List.append_cancel_left hsame]

end FilePath

end SheetCompiler
