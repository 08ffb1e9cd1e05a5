import SheetCompiler.Files.FilePattern
import SheetCompiler.Proofs.DirectoryContents

/-!
# What file patterns match

The parts of a pattern lead from one path to another: a name to what it names, a name with wildcards to
what is there under a matching name, and a recursive part down any number of directories
(`FilePattern.Leads`).  A search goes through listings, and down to a number of levels only; it finds
exactly what the parts lead to (`FilePattern.mem_expand_iff`).

The current directory is not written in front of a name.  Names lead from it all the same, as it is where
relative paths start (`FileTree.Writing.bare`).
-/

namespace SheetCompiler

namespace FileTree

open FilePath (IsFileName bodyParts)

variable {tree : FileTree} {path : FilePath} {name : String}

/-! ## The current directory -/

theorem opening_of_same_here (h : path.same ⟨"."⟩ = true) :
    (FilePath.opening path.text.toList).1 = some .here ∧ bodyParts path.text.toList = [] := by
  have hparts : path.parts = [.here] := beq_iff_eq.mp h
  rw [FilePath.parts_eq, FilePath.bodyParts_opening] at hparts
  have hbody := FilePath.here_notMem_bodyParts path.text.toList
  cases hfirst : (FilePath.opening path.text.toList).1 with
  | none =>
    rw [hfirst, Option.toList_none, List.nil_append] at hparts
    exact absurd (by rw [hparts]; exact List.mem_cons_self) hbody
  | some part =>
    rw [hfirst] at hparts
    obtain ⟨rfl, hnil⟩ := List.cons.inj hparts
    exact ⟨rfl, hnil⟩

theorem steps_of_same_here (h : path.same ⟨"."⟩ = true) :
    ∀ next ∈ steps path, next = .stay := by
  have hbody := (opening_of_same_here h).2
  intro next hnext
  rcases List.mem_append.mp hnext with hpiece | hlast
  · obtain ⟨piece, hkept, rfl⟩ := List.mem_map.mp hpiece
    obtain ⟨hmem, hfilled⟩ := List.mem_filter.mp hkept
    have hidle := FilePath.bodyParts_eq_nil_iff.mp hbody piece hmem
    rw [FilePath.isIdle, Bool.or_eq_true, beq_iff_eq] at hidle
    rw [stepOf, if_pos (hidle.resolve_left (by simpa using hfilled))]
  · split at hlast
    · exact List.mem_singleton.mp hlast
    · cases hlast

theorem start_of_same_here (tree : FileTree) (h : path.same ⟨"."⟩ = true) :
    tree.start path = tree.home := by
  rw [← foldl_enter_opening, (opening_of_same_here h).1]
  rfl

theorem text_ne_empty_of_same_here (h : path.same ⟨"."⟩ = true) : path.text ≠ "" := by
  intro hempty
  have hfirst := (opening_of_same_here h).1
  rw [hempty] at hfirst
  cases hfirst

theorem foldlM_stay {moves : List Step} (h : ∀ next ∈ moves, next = .stay) :
    moves.foldlM tree.step? tree.home = some tree.home := by
  induction moves with
  | nil => rfl
  | cons next rest ih =>
    obtain ⟨rfl, hrest⟩ := List.forall_mem_cons.mp h
    have hhome : tree.node? tree.home = some .directory := by
      rw [node?, if_pos (List.isPrefixOf_iff_prefix.mpr List.prefix_rfl)]
    rw [List.foldlM_cons, step?, if_pos hhome]
    exact ih hrest

theorem location?_of_same_here (tree : FileTree) (h : path.same ⟨"."⟩ = true) :
    tree.location? path = some tree.home := by
  rw [location?_eq tree (text_ne_empty_of_same_here h), start_of_same_here tree h,
    foldlM_stay (steps_of_same_here h)]

theorem location?_name (tree : FileTree) (h : IsFileName name) :
    tree.location? ⟨name⟩ = tree.step? tree.home (.down name) := by
  have hfilled : name ≠ "" := fun hempty => h.ne_nil (String.toList_eq_nil_iff.mpr hempty)
  have hlast : name.toList.getLast? ≠ some FilePath.separator :=
    fun hlast => h.separator (List.mem_of_getLast? hlast)
  rw [location?_eq tree hfilled, steps, pieceSteps_name h, if_neg hlast, start, h.isAbsolute]
  simp

/-- The current directory is not written in front of a name. -/
def Writing.bare : Writing where
  inner := FilePattern.inside
  filled {directory name} hdirectory h := by
    rw [FilePattern.inside]
    split
    · exact fun hempty => h.ne_nil (String.toList_eq_nil_iff.mpr hempty)
    · exact FilePath.join_ne_empty hdirectory _
  location tree {directory name} hdirectory h := by
    rw [FilePattern.inside]
    split
    · rename_i hhere
      rw [location?_name tree h, location?_of_same_here tree hhere, Option.bind_some]
    · exact location?_join tree hdirectory h

end FileTree

namespace FilePattern

open FilePath (IsFileName)
open FileTree (Writing)

variable {tree : FileTree} {directory path : FilePath} {name : String} {parts : List Part}
  {tokens : List Token}

/-! ## Matches -/

/-- The parts of a pattern lead from a directory to a path. -/
inductive Leads (tree : FileTree) : List Part → FilePath → FilePath → Prop
  | done (path : FilePath) : Leads tree [] path path
  | literal {name : String} {parts : List Part} {directory path : FilePath}
      (hexists : literalExists tree directory (inside directory name) name = true)
      (hrest : Leads tree parts (inside directory name) path) :
      Leads tree (.literal name :: parts) directory path
  | special {tokens : List Token} {name : String} {parts : List Part} {directory path : FilePath}
      (hname : isSpecial name = true) (hdot : tokens.head? = some (.char '.'))
      (hmatches : matchesName tokens name.toList = true)
      (hrest : Leads tree parts (directory.join ⟨name⟩) path) :
      Leads tree (.wild tokens :: parts) directory path
  | wild {tokens : List Token} {name : String} {parts : List Part} {directory path : FilePath}
      (hname : IsFileName name) (hexists : tree.exists? (inside directory name) = true)
      (hmatches : matchesName tokens name.toList = true)
      (hrest : Leads tree parts (inside directory name) path) :
      Leads tree (.wild tokens :: parts) directory path
  | within {part : Part} {names : List String} {name : String} {parts : List Part}
      {directory path : FilePath} (hnames : ∀ name ∈ names, IsFileName name)
      (hlast : names.getLast? = some name)
      (hexists : tree.exists? (Writing.bare.reach directory names) = true)
      (haccepts : part.accepts name = true)
      (hrest : Leads tree parts (Writing.bare.reach directory names) path) :
      Leads tree (.recursive :: part :: parts) directory path
  | directories {names : List String} {directory : FilePath} (hne : names ≠ [])
      (hnames : ∀ name ∈ names, IsFileName name)
      (hdirectory : tree.isDirectory (Writing.bare.reach directory names) = true) :
      Leads tree [.recursive] directory (Writing.bare.reach directory names)

theorem entriesBelow_eq (tree : FileTree) (levels : Nat) (directory : FilePath) :
    entriesBelow tree levels directory = Writing.bare.below tree levels directory := by
  induction levels generalizing directory with
  | zero => rfl
  | succ levels ih =>
    rw [entriesBelow, Writing.below, entries, List.flatMap_map]
    simp only [ih]
    rfl

theorem text_ne_empty_of_literalExists (hdirectory : directory.text ≠ "")
    (h : literalExists tree directory (inside directory name) name = true) :
    (inside directory name).text ≠ "" := by
  rw [literalExists] at h
  split at h
  · rename_i hspecial
    rw [inside]
    split
    · rintro rfl
      cases hspecial
    · exact FilePath.join_ne_empty hdirectory _
  · exact FileTree.text_ne_empty_of_exists? h

theorem mem_specials_iff : path ∈ specials tokens directory ↔ ∃ name, isSpecial name = true ∧
    tokens.head? = some (.char '.') ∧ matchesName tokens name.toList = true ∧
      directory.join ⟨name⟩ = path := by
  have hnames : ∀ name, name ∈ [".", ".."] ↔ isSpecial name = true := fun name => by
    simp [isSpecial]
  rw [specials]
  split
  · rename_i hdot
    simp only [List.mem_map, List.mem_filter, hnames, hdot, true_and, and_assoc]
  · rename_i hdot
    exact iff_of_false List.not_mem_nil fun ⟨_, _, hhead, _⟩ => hdot hhead

/-- A search for some parts finds what they lead to, from any path with a text. -/
def Finds (tree : FileTree) (parts : List Part) : Prop :=
  ∀ {directory path : FilePath}, directory.text ≠ "" →
    (path ∈ expandFrom tree parts directory ↔ Leads tree parts directory path)

theorem finds_nil (tree : FileTree) : Finds tree [] := by
  intro directory path _
  rw [expandFrom, List.mem_singleton]
  constructor
  · rintro rfl
    exact .done path
  · rintro ⟨⟩
    rfl

theorem finds_literal (hparts : Finds tree parts) (name : String) :
    Finds tree (.literal name :: parts) := by
  intro directory path hdirectory
  rw [expandFrom]
  split
  · rename_i hexists
    rw [hparts (text_ne_empty_of_literalExists hdirectory hexists)]
    constructor
    · exact .literal hexists
    · rintro ⟨⟩
      assumption
  · rename_i hexists
    refine iff_of_false List.not_mem_nil ?_
    rintro ⟨⟩
    exact hexists ‹_›

theorem finds_wild (h : tree.WellNamed) (hparts : Finds tree parts) (tokens : List Token) :
    Finds tree (.wild tokens :: parts) := by
  intro directory path hdirectory
  rw [expandFrom, List.mem_append, List.mem_flatMap, List.mem_flatMap]
  constructor
  · rintro (⟨special, hspecial, hpath⟩ | ⟨entry, hentry, hpath⟩)
    · obtain ⟨name, hname, hdot, hmatches, rfl⟩ := mem_specials_iff.mp hspecial
      exact .special hname hdot hmatches
        ((hparts (FilePath.join_ne_empty hdirectory _)).mp hpath)
    · obtain ⟨name, hmem, rfl⟩ := List.mem_map.mp hentry
      have hname := h.isFileName hmem
      split at hpath
      · rename_i hmatches
        exact .wild hname ((Writing.bare.mem_names_iff_exists? hdirectory hname).mp hmem) hmatches
          ((hparts (Writing.bare.filled hdirectory hname)).mp hpath)
      · cases hpath
  · intro hleads
    cases hleads with
    | special hname hdot hmatches hrest =>
      refine Or.inl ⟨_, mem_specials_iff.mpr ⟨_, hname, hdot, hmatches, rfl⟩, ?_⟩
      exact (hparts (FilePath.join_ne_empty hdirectory _)).mpr hrest
    | wild hname hexists hmatches hrest =>
      have hmem := (Writing.bare.mem_names_iff_exists? hdirectory hname).mpr hexists
      refine Or.inr ⟨_, List.mem_map.mpr ⟨_, hmem, rfl⟩, ?_⟩
      rw [if_pos hmatches]
      exact (hparts (Writing.bare.filled hdirectory hname)).mpr hrest

theorem finds_directories (h : tree.WellNamed) : Finds tree [.recursive] := by
  intro directory path hdirectory
  simp only [expandFrom, List.mem_map, List.mem_filter, Prod.exists, entriesBelow_eq,
    Writing.mem_below_depth_iff h hdirectory]
  constructor
  · rintro ⟨found, name, ⟨⟨names, hnames, hlast, rfl, -⟩, hisdirectory⟩, rfl⟩
    refine .directories ?_ hnames hisdirectory
    rintro rfl
    cases hlast
  · intro hleads
    cases hleads with
    | @directories names _ hne hnames hisdirectory =>
      exact ⟨_, names.getLast hne, ⟨⟨names, hnames, List.getLast?_eq_some_getLast hne, rfl,
        FileTree.exists?_of_isDirectory hisdirectory⟩, hisdirectory⟩, rfl⟩

theorem finds_within (h : tree.WellNamed) (hparts : Finds tree parts) (part : Part) :
    Finds tree (.recursive :: part :: parts) := by
  intro directory path hdirectory
  simp only [expandFrom, List.mem_flatMap, Prod.exists, entriesBelow_eq,
    Writing.mem_below_depth_iff h hdirectory]
  constructor
  · rintro ⟨found, name, ⟨names, hnames, hlast, rfl, hexists⟩, hpath⟩
    split at hpath
    · rename_i haccepts
      exact .within hnames hlast hexists haccepts
        ((hparts (FileTree.text_ne_empty_of_exists? hexists)).mp hpath)
    · cases hpath
  · intro hleads
    cases hleads with
    | @within _ names name _ _ _ hnames hlast hexists haccepts hrest =>
      refine ⟨_, name, ⟨names, hnames, hlast, rfl, hexists⟩, ?_⟩
      rw [if_pos haccepts]
      exact (hparts (FileTree.text_ne_empty_of_exists? hexists)).mpr hrest

theorem finds (h : tree.WellNamed) : (parts : List Part) → Finds tree parts
  | [] => finds_nil tree
  | .literal name :: parts => finds_literal (finds h parts) name
  | .wild tokens :: parts => finds_wild h (finds h parts) tokens
  | [.recursive] => finds_directories h
  | .recursive :: part :: parts => finds_within h (finds h parts) part

theorem start_of_read {pattern : String} {reading : Reading} (h : read pattern = .ok reading) :
    reading.start.text ≠ "" := by
  simp only [read] at h
  split at h
  · cases h
  · split at h
    · cases h
    · rw [← Except.ok.inj h]
      dsimp only
      split <;> decide

/-- What is found for a pattern is what its parts lead to from its start, and only directories if a
separator ends it. -/
theorem mem_expand_iff (h : tree.WellNamed) {pattern : String} {reading : Reading}
    (hread : read pattern = .ok reading) : path ∈ expand tree reading ↔
      Leads tree reading.parts reading.start path ∧
        (reading.directories = true → tree.isDirectory path = true) := by
  rw [expand]
  split
  · rename_i hdirectories
    rw [List.mem_filter, finds h reading.parts (start_of_read hread)]
    simp [hdirectories]
  · rename_i hdirectories
    rw [finds h reading.parts (start_of_read hread)]
    simp [hdirectories]

end FilePattern

end SheetCompiler
