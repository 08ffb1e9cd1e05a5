import Mathlib.Data.List.Basic
import SheetCompiler.Proofs.PathParts

/-!
# What directories hold

A name that is written behind a directory leads one step further (`FileTree.location?_join`), and there
may be more than one way to write it (`FileTree.Writing`).  So the names in a directory are those under
which something stands there (`FileTree.Writing.mem_names_iff_exists?`), and what is listed below a
directory is all to which names lead from it, one after another.

A listing goes down a number of levels only.  Each name leads one level deeper, and nothing stands deeper
than the tree has levels (`FileTree.length_le_depth`), so a listing with that many levels is complete
(`FileTree.mem_below_depth_iff`).
-/

namespace SheetCompiler

namespace FilePath

variable {directory : FilePath} {name : String}

theorem toList_join (hdirectory : directory.text ≠ "") (h : IsFileName name) :
    ∃ front, (directory.join ⟨name⟩).text.toList = front ++ FilePath.separator :: name.toList ∧
      (directory.text.toList = front ∨ directory.text.toList = front ++ [FilePath.separator]) := by
  rw [join, h.isAbsolute, if_neg (by simpa using hdirectory)]
  split
  · rename_i hlast
    obtain ⟨front, hfront⟩ := List.getLast?_eq_some_iff.mp hlast
    refine ⟨front, ?_, Or.inr hfront⟩
    rw [String.toList_append, hfront, List.append_assoc, List.singleton_append]
  · exact ⟨directory.text.toList, by simp, Or.inl rfl⟩

theorem isAbsolute_join (hdirectory : directory.text ≠ "") (h : IsFileName name) :
    (directory.join ⟨name⟩).isAbsolute = directory.isAbsolute := by
  obtain ⟨front, hjoin, hfront⟩ := toList_join hdirectory h
  rw [isAbsolute, isAbsolute, hjoin]
  rcases hfront with hsame | hsame
  · cases front with
    | nil => exact absurd (String.toList_eq_nil_iff.mp hsame) hdirectory
    | cons c rest => rw [hsame, List.cons_append, List.head?_cons, List.head?_cons]
  · rw [hsame, List.head?_append, List.head?_append, List.head?_cons, List.head?_cons]

theorem join_ne_empty (hdirectory : directory.text ≠ "") (path : FilePath) :
    (directory.join path).text ≠ "" := by
  intro hempty
  rw [join] at hempty
  split at hempty
  · rename_i hpath
    have habsolute := hpath.resolve_right (by simpa using hdirectory)
    rw [isAbsolute, hempty] at habsolute
    cases habsolute
  · split at hempty <;> simp [hdirectory] at hempty

end FilePath

namespace FileTree

open FilePath (IsFileName)

variable {tree : FileTree} {directory path : FilePath} {name : String} {location : Location}

/-! ## Steps to names -/

theorem pieceSteps_append {front back : List Char}
    (h : path.text.toList = front ++ FilePath.separator :: back) :
    pieceSteps path = pieceSteps ⟨String.ofList front⟩ ++ pieceSteps ⟨String.ofList back⟩ := by
  rw [pieceSteps, h, Text.cut_append, List.filter_append, List.map_append, pieceSteps, pieceSteps,
    String.toList_ofList, String.toList_ofList]

theorem pieceSteps_name (h : IsFileName name) : pieceSteps ⟨name⟩ = [.down name] := by
  have hstep : stepOf name.toList = .down name := by
    rw [stepOf, if_neg h.ne_dot, if_neg h.up, String.ofList_toList]
  rw [pieceSteps, Text.cut_of_notMem h.separator]
  simp [h.ne_nil, hstep]

/-- The steps to a name in a directory are those to the directory, and one down. -/
theorem steps_join (hdirectory : directory.text ≠ "") (h : IsFileName name) :
    steps (directory.join ⟨name⟩) = pieceSteps directory ++ [.down name] := by
  obtain ⟨front, hjoin, hfront⟩ := FilePath.toList_join hdirectory h
  have hlast : (directory.join ⟨name⟩).text.toList.getLast? ≠ some FilePath.separator := by
    rw [hjoin, List.getLast?_append_of_ne_nil _ (List.cons_ne_nil _ _),
      List.getLast?_cons_of_ne_nil h.ne_nil]
    exact fun hsome => h.separator (List.mem_of_getLast? hsome)
  have hpieces : pieceSteps directory = pieceSteps ⟨String.ofList front⟩ := by
    rcases hfront with hsame | hsame
    · rw [← hsame, String.ofList_toList]
    · exact (pieceSteps_append hsame).trans (List.append_nil _)
  rw [steps, if_neg hlast, List.append_nil, pieceSteps_append hjoin, String.ofList_toList,
    pieceSteps_name h, hpieces]

theorem location?_eq (tree : FileTree) (h : path.text ≠ "") :
    tree.location? path = (steps path).foldlM tree.step? (tree.start path) := by
  rw [location?, if_neg (by simpa using h), toOption_walk]

/-- A name in a directory leads one step further. -/
theorem location?_join (tree : FileTree) (hdirectory : directory.text ≠ "") (h : IsFileName name) :
    tree.location? (directory.join ⟨name⟩) =
      (tree.location? directory).bind fun location => tree.step? location (.down name) := by
  have hdown : ∀ location : Location, (tree.step? location .stay).bind
      (fun location => tree.step? location (.down name)) = tree.step? location (.down name) := by
    intro location
    rw [step?]
    split
    · rfl
    · rename_i hnot
      rw [step?, if_neg hnot]
      rfl
  rw [location?_eq tree hdirectory, location?_eq tree (FilePath.join_ne_empty hdirectory _),
    steps_join hdirectory h, start, start, FilePath.isAbsolute_join hdirectory h, steps,
    List.foldlM_append, List.foldlM_append]
  generalize (pieceSteps directory).foldlM tree.step? _ = front
  cases front with
  | none => rfl
  | some location =>
    split
    · simp [hdown]
    · simp

/-! ## Files, directories, and their names -/

theorem find_eq_ok_iff {node : FileNode} : tree.find path = .ok (location, node) ↔
    tree.location? path = some location ∧ tree.node? location = some node := by
  have hfind : tree.find path = .ok (location, node) ↔
      (tree.find path).toOption = some (location, node) :=
    ⟨fun h => by rw [h]; rfl, eq_ok_of_toOption⟩
  rw [hfind, toOption_find, Option.bind_eq_some_iff]
  simp only [Option.map_eq_some_iff, Prod.mk.injEq]
  grind

theorem isDirectory_iff : tree.isDirectory path = true ↔
    ∃ location, tree.location? path = some location ∧ tree.node? location = some .directory := by
  simp only [← find_eq_ok_iff]
  rw [isDirectory]
  split
  · rename_i location hfind
    exact iff_of_true rfl ⟨location, hfind⟩
  · rename_i hnot
    exact iff_of_false nofun fun ⟨location, hfind⟩ => hnot location hfind

theorem isFile_iff : tree.isFile path = true ↔ ∃ location content,
    tree.location? path = some location ∧ tree.node? location = some (.file content) := by
  simp only [← find_eq_ok_iff]
  rw [isFile]
  split
  · rename_i location content hfind
    exact iff_of_true rfl ⟨location, content, hfind⟩
  · rename_i hnot
    exact iff_of_false nofun fun ⟨location, content, hfind⟩ => hnot location content hfind

theorem exists?_iff : tree.exists? path = true ↔
    ∃ location, tree.location? path = some location ∧ (tree.node? location).isSome = true := by
  rw [exists?_eq]
  cases tree.location? path with
  | none => exact iff_of_false nofun nofun
  | some location => simp

theorem exists?_of_isFile (h : tree.isFile path = true) : tree.exists? path = true := by
  obtain ⟨location, content, hlocation, hnode⟩ := isFile_iff.mp h
  exact exists?_iff.mpr ⟨location, hlocation, by rw [hnode]; rfl⟩

theorem exists?_of_isDirectory (h : tree.isDirectory path = true) : tree.exists? path = true := by
  obtain ⟨location, hlocation, hnode⟩ := isDirectory_iff.mp h
  exact exists?_iff.mpr ⟨location, hlocation, by rw [hnode]; rfl⟩

/-- The empty path leads nowhere. -/
theorem text_ne_empty_of_exists? (h : tree.exists? path = true) : path.text ≠ "" := by
  obtain ⟨location, hlocation, -⟩ := exists?_iff.mp h
  intro hempty
  rw [location?, if_pos (String.isEmpty_iff.mpr hempty)] at hlocation
  cases hlocation

/-- No file is a directory. -/
theorem isDirectory_of_isFile (h : tree.isFile path = true) : tree.isDirectory path = false := by
  obtain ⟨location, content, hlocation, hnode⟩ := isFile_iff.mp h
  refine Bool.eq_false_iff.mpr fun hdirectory => ?_
  obtain ⟨other, hother, hboth⟩ := isDirectory_iff.mp hdirectory
  obtain rfl : location = other := Option.some.inj (hlocation.symm.trans hother)
  rw [hnode] at hboth
  cases hboth

theorem isSome_lookup_iff {nodes : List (Location × FileNode)} :
    (nodes.lookup location).isSome = true ↔ location ∈ nodes.map Prod.fst := by
  induction nodes with
  | nil => exact iff_of_false nofun List.not_mem_nil
  | cons entry rest ih =>
    rw [List.lookup_cons, List.map_cons, List.mem_cons, ← ih]
    cases hsame : location == entry.1 with
    | true => exact iff_of_true rfl (Or.inl (beq_iff_eq.mp hsame))
    | false => exact (or_iff_right (beq_eq_false_iff_ne.mp hsame)).symm

theorem isSome_node?_iff : (tree.node? location).isSome = true ↔
    location <+: tree.home ∨ location ∈ tree.nodes.map Prod.fst := by
  rw [node?, ← List.isPrefixOf_iff_prefix]
  split
  · rename_i habove
    exact iff_of_true rfl (Or.inl habove)
  · rename_i habove
    rw [isSome_lookup_iff, or_iff_right habove]

theorem isChild_iff {inner : Location} :
    isChild location inner = true ↔ ∃ name, inner = location ++ [name] := by
  rw [isChild, Bool.and_eq_true, beq_iff_eq, List.isPrefixOf_iff_prefix]
  constructor
  · rintro ⟨hlength, back, rfl⟩
    rw [List.length_append, Nat.add_left_cancel_iff, List.length_eq_one_iff] at hlength
    obtain ⟨name, rfl⟩ := hlength
    exact ⟨name, rfl⟩
  · rintro ⟨name, rfl⟩
    exact ⟨by simp, List.prefix_append _ _⟩

theorem mem_filterMap_isChild {locations : List Location} :
    name ∈ locations.filterMap (fun inner =>
      if isChild location inner then inner.getLast? else none) ↔
        location ++ [name] ∈ locations := by
  rw [List.mem_filterMap]
  constructor
  · rintro ⟨inner, hinner, hlast⟩
    rw [Option.ite_none_right_eq_some, isChild_iff] at hlast
    obtain ⟨⟨other, rfl⟩, hlast⟩ := hlast
    rw [List.getLast?_concat, Option.some_inj] at hlast
    exact hlast ▸ hinner
  · intro hmem
    exact ⟨_, hmem, by rw [if_pos (isChild_iff.mpr ⟨name, rfl⟩), List.getLast?_concat]⟩

theorem concat_prefix_iff {home : Location} : location ++ [name] <+: home ↔
    location <+: home ∧ (home.drop location.length).head? = some name := by
  constructor
  · rintro ⟨back, rfl⟩
    exact ⟨⟨[name] ++ back, by rw [List.append_assoc]⟩, by simp⟩
  · rintro ⟨⟨back, rfl⟩, hhead⟩
    rw [List.drop_left] at hhead
    obtain ⟨more, rfl⟩ := List.head?_eq_some_iff.mp hhead
    exact ⟨more, by simp⟩

/-- The names in a directory are those of what stands there. -/
theorem mem_namesAt_iff :
    name ∈ tree.namesAt location ↔ (tree.node? (location ++ [name])).isSome = true := by
  rw [isSome_node?_iff, concat_prefix_iff, namesAt, ← List.isPrefixOf_iff_prefix]
  split
  · rename_i habove
    rw [and_iff_right habove]
    cases tree.home.drop location.length with
    | nil =>
      rw [mem_filterMap_isChild]
      simp
    | cons next rest =>
      dsimp only
      rw [List.head?_cons, Option.some_inj]
      split
      · rename_i hlisted
        rw [List.contains_iff_mem, mem_filterMap_isChild] at hlisted
        rw [mem_filterMap_isChild]
        exact (or_iff_right_of_imp fun hsame => hsame ▸ hlisted).symm
      · rw [List.mem_cons, mem_filterMap_isChild, eq_comm]
  · rename_i habove
    rw [mem_filterMap_isChild, or_iff_right fun h => habove h.1]

theorem mem_names_iff : name ∈ tree.names directory ↔ ∃ location,
    tree.location? directory = some location ∧ tree.node? location = some .directory ∧
      (tree.node? (location ++ [name])).isSome = true := by
  simp only [← and_assoc, ← find_eq_ok_iff]
  rw [names]
  split
  · rename_i location hfind
    rw [mem_namesAt_iff]
    constructor
    · exact fun hsome => ⟨location, hfind, hsome⟩
    · rintro ⟨other, hother, hsome⟩
      rw [hfind, Except.ok.injEq, Prod.mk.injEq] at hother
      exact hother.1 ▸ hsome
  · rename_i hnot
    exact iff_of_false List.not_mem_nil fun ⟨location, hfind, _⟩ => hnot location hfind

/-! ## Ways to write inner paths -/

/-- A way to write the path of a name in a directory.  However it is written, it leads one step
further. -/
structure Writing where
  inner : FilePath → String → FilePath
  filled : ∀ {directory : FilePath} {name : String}, directory.text ≠ "" → IsFileName name →
    (inner directory name).text ≠ ""
  location : ∀ (tree : FileTree) {directory : FilePath} {name : String}, directory.text ≠ "" →
    IsFileName name → tree.location? (inner directory name) =
      (tree.location? directory).bind fun location => tree.step? location (.down name)

namespace Writing

variable {writing : Writing} {names : List String}

/-- Names are joined to their directory. -/
def joined : Writing where
  inner directory name := directory.join ⟨name⟩
  filled hdirectory _ := FilePath.join_ne_empty hdirectory _
  location tree _ _ := location?_join tree

/-- The path to which names lead from a directory, one below the other. -/
def reach (writing : Writing) (directory : FilePath) (names : List String) : FilePath :=
  names.foldl writing.inner directory

theorem reach_cons (writing : Writing) (directory : FilePath) (name : String)
    (names : List String) : writing.reach directory (name :: names) =
      writing.reach (writing.inner directory name) names := rfl

theorem location?_inner_eq_some (hdirectory : directory.text ≠ "") (h : IsFileName name) :
    tree.location? (writing.inner directory name) = some location ↔ ∃ above,
      tree.location? directory = some above ∧ tree.node? above = some .directory ∧
        location = above ++ [name] := by
  rw [writing.location tree hdirectory h, Option.bind_eq_some_iff]
  refine exists_congr fun above => and_congr_right fun _ => ?_
  rw [step?, Option.ite_none_right_eq_some, Option.some_inj, follow, eq_comm (a := location)]

/-- The names in a directory are those under which something stands there. -/
theorem mem_names_iff_exists? (writing : Writing) (hdirectory : directory.text ≠ "")
    (h : IsFileName name) :
    name ∈ tree.names directory ↔ tree.exists? (writing.inner directory name) = true := by
  rw [mem_names_iff, exists?_iff]
  simp only [location?_inner_eq_some hdirectory h]
  constructor
  · rintro ⟨above, hlocation, hnode, hsome⟩
    exact ⟨_, ⟨above, hlocation, hnode, rfl⟩, hsome⟩
  · rintro ⟨location, ⟨above, hlocation, hnode, rfl⟩, hsome⟩
    exact ⟨above, hlocation, hnode, hsome⟩

theorem location?_reach (hdirectory : directory.text ≠ "") (h : ∀ name ∈ names, IsFileName name)
    (hlocation : tree.location? (writing.reach directory names) = some location) :
    ∃ above, tree.location? directory = some above ∧ location = above ++ names := by
  induction names generalizing directory with
  | nil => exact ⟨location, hlocation, (List.append_nil location).symm⟩
  | cons name rest ih =>
    obtain ⟨hname, hrest⟩ := List.forall_mem_cons.mp h
    obtain ⟨inner, hinner, rfl⟩ := ih (writing.filled hdirectory hname) hrest hlocation
    obtain ⟨above, habove, -, rfl⟩ := (location?_inner_eq_some hdirectory hname).mp hinner
    exact ⟨above, habove, List.append_assoc _ _ _⟩

/-- Whatever stands above something is there as well. -/
theorem exists?_of_reach (hdirectory : directory.text ≠ "") (h : ∀ name ∈ names, IsFileName name)
    (hexists : tree.exists? (writing.reach directory names) = true) :
    tree.exists? directory = true := by
  induction names generalizing directory with
  | nil => exact hexists
  | cons name rest ih =>
    obtain ⟨hname, hrest⟩ := List.forall_mem_cons.mp h
    obtain ⟨inner, hinner, -⟩ := exists?_iff.mp
      (ih (writing.filled hdirectory hname) hrest hexists)
    obtain ⟨above, habove, hnode, -⟩ := (location?_inner_eq_some hdirectory hname).mp hinner
    exact exists?_iff.mpr ⟨above, habove, by rw [hnode]; rfl⟩

end Writing

/-! ## Below a directory -/

/-- The files and directories of a tree have names that can be a part of a path. -/
structure WellNamed (tree : FileTree) : Prop where
  home : ∀ name ∈ tree.home, IsFileName name
  nodes : ∀ location ∈ tree.nodes.map Prod.fst, ∀ name ∈ location, IsFileName name

theorem WellNamed.isFileName (h : tree.WellNamed) (hname : name ∈ tree.names directory) :
    IsFileName name := by
  obtain ⟨location, -, -, hsome⟩ := mem_names_iff.mp hname
  have hlast : name ∈ location ++ [name] := List.mem_append_right _ List.mem_cons_self
  rcases isSome_node?_iff.mp hsome with habove | hmem
  · exact h.home name (habove.subset hlast)
  · exact h.nodes _ hmem name hlast

/-- The paths below a directory and their names, down to a number of levels. -/
def Writing.below (writing : Writing) (tree : FileTree) :
    (levels : Nat) → FilePath → List (FilePath × String)
  | 0, _ => []
  | levels + 1, directory => (tree.names directory).flatMap fun name =>
    (writing.inner directory name, name) ::
      writing.below tree levels (writing.inner directory name)

theorem below_eq (tree : FileTree) (levels : Nat) (directory : FilePath) :
    tree.below levels directory = (Writing.joined.below tree levels directory).map Prod.fst := by
  induction levels generalizing directory with
  | zero => rfl
  | succ levels ih =>
    rw [below, Writing.below, List.map_flatMap]
    simp only [ih, List.map_cons]
    rfl

/-- Down to a number of levels there is everything that no more names lead to. -/
theorem Writing.mem_below_iff {writing : Writing} (h : tree.WellNamed)
    (hdirectory : directory.text ≠ "") {levels : Nat} :
    (path, name) ∈ writing.below tree levels directory ↔ ∃ names, names.length ≤ levels ∧
      (∀ name ∈ names, IsFileName name) ∧ names.getLast? = some name ∧
        path = writing.reach directory names ∧ tree.exists? path = true := by
  induction levels generalizing directory with
  | zero =>
    refine iff_of_false List.not_mem_nil ?_
    rintro ⟨names, hlength, -, hlast, -⟩
    rw [List.eq_nil_of_length_eq_zero (Nat.le_zero.mp hlength)] at hlast
    cases hlast
  | succ levels ih =>
    rw [Writing.below, List.mem_flatMap]
    constructor
    · rintro ⟨first, hmem, hpath⟩
      have hfirst := h.isFileName hmem
      rcases List.mem_cons.mp hpath with hsame | hpath
      · obtain ⟨rfl, rfl⟩ := Prod.mk.inj hsame
        exact ⟨[name], by simp, by simpa using hfirst, rfl, rfl,
          (writing.mem_names_iff_exists? hdirectory hfirst).mp hmem⟩
      · obtain ⟨names, hlength, hnames, hlast, hpath, hexists⟩ :=
          (ih (writing.filled hdirectory hfirst)).mp hpath
        exact ⟨first :: names, Nat.succ_le_succ hlength,
          List.forall_mem_cons.mpr ⟨hfirst, hnames⟩, by simp [List.getLast?_cons, hlast], hpath,
          hexists⟩
    · rintro ⟨names, hlength, hnames, hlast, hpath, hexists⟩
      cases names with
      | nil => cases hlast
      | cons first rest =>
        obtain ⟨hfirst, hrest⟩ := List.forall_mem_cons.mp hnames
        have hinner := writing.filled hdirectory hfirst
        rw [reach_cons] at hpath
        have habove := exists?_of_reach hinner hrest (hpath ▸ hexists)
        refine ⟨first, (writing.mem_names_iff_exists? hdirectory hfirst).mpr habove,
          List.mem_cons.mpr ?_⟩
        cases rest with
        | nil =>
          obtain rfl : first = name := Option.some.inj hlast
          exact Or.inl (Prod.ext hpath rfl)
        | cons next more =>
          rw [List.getLast?_cons_cons] at hlast
          exact Or.inr ((ih hinner).mpr
            ⟨_, Nat.le_of_succ_le_succ hlength, hrest, hlast, hpath, hexists⟩)

theorem le_foldl_max (locations : List Location) (deepest : Nat) :
    deepest ≤ locations.foldl (fun deepest location => max deepest location.length) deepest ∧
      ∀ location ∈ locations, location.length ≤
        locations.foldl (fun deepest location => max deepest location.length) deepest := by
  induction locations generalizing deepest with
  | nil => exact ⟨le_rfl, nofun⟩
  | cons first rest ih =>
    obtain ⟨hdeepest, hrest⟩ := ih (max deepest first.length)
    rw [List.foldl_cons]
    exact ⟨(le_max_left _ _).trans hdeepest,
      List.forall_mem_cons.mpr ⟨(le_max_right _ _).trans hdeepest, hrest⟩⟩

/-- Nothing stands deeper than a tree can have levels. -/
theorem length_le_depth (h : (tree.node? location).isSome = true) :
    location.length ≤ tree.depth := by
  have hall := (le_foldl_max (tree.home :: tree.nodes.map Prod.fst) 0).2
  rcases isSome_node?_iff.mp h with habove | hmem
  · exact habove.length_le.trans (hall tree.home List.mem_cons_self)
  · exact hall location (List.mem_cons_of_mem _ hmem)

/-- With as many levels as the tree can have, there is everything at any depth. -/
theorem Writing.mem_below_depth_iff {writing : Writing} (h : tree.WellNamed)
    (hdirectory : directory.text ≠ "") :
    (path, name) ∈ writing.below tree tree.depth directory ↔ ∃ names,
      (∀ name ∈ names, IsFileName name) ∧ names.getLast? = some name ∧
        path = writing.reach directory names ∧ tree.exists? path = true := by
  rw [mem_below_iff h hdirectory]
  refine exists_congr fun names => and_iff_right_of_imp ?_
  rintro ⟨hnames, -, rfl, hexists⟩
  obtain ⟨location, hlocation, hsome⟩ := exists?_iff.mp hexists
  obtain ⟨above, -, rfl⟩ := location?_reach hdirectory hnames hlocation
  have hlength := length_le_depth hsome
  rw [List.length_append] at hlength
  exact Nat.le_of_add_left_le hlength

/-- What is listed below a directory is everything to which names lead from it, as many as there are. -/
theorem mem_below_depth_iff (h : tree.WellNamed) (hdirectory : directory.text ≠ "") :
    path ∈ tree.below tree.depth directory ↔ ∃ names, names ≠ [] ∧
      (∀ name ∈ names, IsFileName name) ∧ path = Writing.joined.reach directory names ∧
        tree.exists? path = true := by
  rw [below_eq, List.mem_map]
  constructor
  · rintro ⟨⟨path, name⟩, hmem, rfl⟩
    obtain ⟨names, hnames, hlast, hpath, hexists⟩ :=
      (Writing.mem_below_depth_iff h hdirectory).mp hmem
    refine ⟨names, ?_, hnames, hpath, hexists⟩
    rintro rfl
    cases hlast
  · rintro ⟨names, hne, hnames, hpath, hexists⟩
    exact ⟨(path, names.getLast hne), (Writing.mem_below_depth_iff h hdirectory).mpr
      ⟨names, hnames, List.getLast?_eq_some_getLast hne, hpath, hexists⟩, rfl⟩

end FileTree

end SheetCompiler
