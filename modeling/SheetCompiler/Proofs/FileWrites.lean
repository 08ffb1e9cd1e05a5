import SheetCompiler.Files.FileTree
import SheetCompiler.Proofs.Steps

/-!
# Writing files

A path leads to a location, or nowhere (`FileTree.location?`).  Where it leads to depends on the
directories of a tree alone (`SameDirectories.location?_eq`), and a file that is written where there
is no directory leaves them as they are (`SameDirectories.put`).  So a write changes what stands at
one location (`node?_put`), and every other path is looked up and read as before (`toOption_find`,
`toOption_read`).

Making directories leaves all files as they are (`SameFiles.makeDirectories`).

What may change with a write is why a lookup fails: a step below a location where nothing was fails
for another reason once there is a file.
-/

namespace SheetCompiler

open Text (Bytes)

/-- The content of a file. -/
def FileNode.content? : FileNode → Option Bytes
  | .directory => none
  | .file content => some content

namespace FileTree

variable {tree other : FileTree} {location : Location}

/-! ## Where paths lead -/

/-- The location that a path leads to. -/
def location? (tree : FileTree) (path : FilePath) : Option Location :=
  if path.text.isEmpty then none else (tree.walk (tree.start path) (steps path)).toOption

/-- Where a step leads from a directory. -/
def follow (location : Location) : Step → Location
  | .stay => location
  | .up => location.dropLast
  | .down name => location ++ [name]

/-- Take one step, if that can be done. -/
def step? (tree : FileTree) (location : Location) (next : Step) : Option Location :=
  if tree.node? location = some .directory then some (follow location next) else none

theorem toOption_step (tree : FileTree) (location : Location) (next : Step) :
    (tree.step location next).toOption = tree.step? location next := by
  unfold step step?
  cases tree.node? location with
  | none => rfl
  | some node =>
    cases node with
    | directory => cases next <;> rfl
    | file content => rfl

theorem toOption_walk (tree : FileTree) (location : Location) (steps : List Step) :
    (tree.walk location steps).toOption = steps.foldlM tree.step? location :=
  toOption_foldlM (fun next _ location => toOption_step tree location next) location

/-- Two trees start paths in the same directory and have their directories in common. -/
structure SameDirectories (tree other : FileTree) : Prop where
  home : tree.home = other.home
  directory : ∀ location,
    tree.node? location = some .directory ↔ other.node? location = some .directory

theorem SameDirectories.refl (tree : FileTree) : tree.SameDirectories tree :=
  ⟨rfl, fun _ => Iff.rfl⟩

theorem SameDirectories.trans {third : FileTree} (h : tree.SameDirectories other)
    (hother : other.SameDirectories third) : tree.SameDirectories third :=
  ⟨h.home.trans hother.home,
    fun location => (h.directory location).trans (hother.directory location)⟩

/-- Paths lead to the same locations. -/
theorem SameDirectories.location?_eq (h : tree.SameDirectories other) (path : FilePath) :
    tree.location? path = other.location? path := by
  have hstep : tree.step? = other.step? := by
    funext location next
    unfold step?
    simp only [h.directory location]
  rw [location?, location?, toOption_walk, toOption_walk, hstep, start, start, h.home]

/-! ## What stands there -/

theorem toOption_find (tree : FileTree) (path : FilePath) :
    (tree.find path).toOption = (tree.location? path).bind fun location =>
      (tree.node? location).map fun node => (location, node) := by
  rw [find, location?]
  split
  · rfl
  · cases tree.walk (tree.start path) (steps path) with
    | error fault => rfl
    | ok location =>
      rw [Except.toOption, Option.bind_some]
      dsimp only
      cases tree.node? location <;> rfl

theorem exists?_eq (tree : FileTree) (path : FilePath) :
    tree.exists? path = ((tree.location? path).bind tree.node?).isSome := by
  have hfind : tree.exists? path = (tree.find path).toOption.isSome := by
    rw [exists?]
    cases tree.find path <;> rfl
  rw [hfind, toOption_find]
  cases tree.location? path with
  | none => rfl
  | some location =>
    rw [Option.bind_some, Option.bind_some]
    cases tree.node? location <;> rfl

theorem toOption_read (tree : FileTree) (path : FilePath) :
    (tree.read path).toOption =
      ((tree.location? path).bind tree.node?).bind FileNode.content? := by
  have hread : (tree.read path).toOption = (tree.find path).toOption.bind fun found =>
      FileNode.content? found.2 := by
    rw [read]
    cases tree.find path with
    | error fault => rfl
    | ok found =>
      obtain ⟨location, node⟩ := found
      cases node <;> rfl
  rw [hread, toOption_find]
  cases tree.location? path with
  | none => rfl
  | some location =>
    rw [Option.bind_some, Option.bind_some]
    cases tree.node? location <;> rfl

/-- Trees with the same nodes read alike. -/
theorem read_congr (hhome : tree.home = other.home)
    (hnodes : ∀ location, tree.node? location = other.node? location) (path : FilePath) :
    tree.read path = other.read path := by
  have hnode : tree.node? = other.node? := funext hnodes
  have hstep : tree.step = other.step := by
    funext location next
    unfold step
    rw [hnode]
  rw [read, read, find, find, walk, walk, hstep, hnode, start, start, hhome]

/-! ## Writes -/

/-- A node that is put where there is no directory stands there, and the others stay. -/
theorem node?_put (h : tree.node? location ≠ some .directory) (node : FileNode)
    (inner : Location) :
    (tree.put location node).node? inner =
      if inner = location then some node else tree.node? inner := by
  unfold node? at h ⊢
  show (if inner.isPrefixOf tree.home = true then some .directory
    else (set location node tree.nodes).lookup inner) = _
  by_cases hinner : inner = location
  · rw [if_pos hinner, hinner, lookup_set_self]
    split
    · rename_i hprefix
      rw [if_pos hprefix] at h
      exact absurd rfl h
    · rfl
  · rw [if_neg hinner, lookup_set_of_ne hinner]

theorem SameDirectories.put (h : tree.node? location ≠ some .directory) (content : Bytes) :
    tree.SameDirectories (tree.put location (.file content)) := by
  refine ⟨rfl, fun inner => ?_⟩
  rw [node?_put h]
  split
  · rename_i hinner
    rw [hinner]
    exact ⟨fun hdirectory => absurd hdirectory h, fun hfile => by cases hfile⟩
  · exact Iff.rfl

/-- A file is written where a path leads to, unless there is a directory. -/
theorem write_eq_ok {path : FilePath} {content : Bytes} {after : FileTree} :
    tree.write path content = .ok after ↔ ∃ location, tree.location? path = some location ∧
      tree.node? location ≠ some .directory ∧ after = tree.put location (.file content) := by
  rw [write, location?]
  split
  · simp
  · cases tree.walk (tree.start path) (steps path) with
    | error fault => simp [Except.toOption]
    | ok location =>
      simp only [Except.toOption, Option.some.injEq, exists_eq_left']
      cases hnode : tree.node? location with
      | none => simp [eq_comm]
      | some node => cases node <;> simp [eq_comm]

/-! ## Making directories -/

/-- Two trees start paths in the same directory and have their files in common. -/
structure SameFiles (tree other : FileTree) : Prop where
  home : tree.home = other.home
  file : ∀ location content,
    tree.node? location = some (.file content) ↔ other.node? location = some (.file content)

theorem SameFiles.refl (tree : FileTree) : tree.SameFiles tree := ⟨rfl, fun _ _ => Iff.rfl⟩

theorem SameFiles.trans {third : FileTree} (h : tree.SameFiles other)
    (hother : other.SameFiles third) : tree.SameFiles third :=
  ⟨h.home.trans hother.home,
    fun location content => (h.file location content).trans (hother.file location content)⟩

theorem SameFiles.makeDirectory {path : FilePath} {after : FileTree}
    (h : tree.makeDirectory path = .ok after) : tree.SameFiles after := by
  rw [FileTree.makeDirectory] at h
  split at h
  · cases h
  · split at h
    · cases h
    · rename_i location _
      split at h
      · cases h
      · rename_i hsome
        have hnone : tree.node? location = none := by
          simpa using hsome
        obtain rfl := Except.ok.inj h
        refine ⟨rfl, fun inner content => ?_⟩
        rw [node?_put (by simp [hnone])]
        split
        · rename_i hinner
          simp [hinner, hnone]
        · exact Iff.rfl

theorem SameFiles.ensureDirectory {path : FilePath} {after : FileTree}
    (h : tree.ensureDirectory path = .ok after) : tree.SameFiles after := by
  rw [FileTree.ensureDirectory] at h
  split at h
  · rename_i made hmade
    obtain rfl := Except.ok.inj h
    exact .makeDirectory hmade
  · split at h
    · obtain rfl := Except.ok.inj h
      exact .refl tree
    · cases h

theorem SameFiles.makeLevels {levels : Nat} {path : FilePath} {after : FileTree}
    (h : FileTree.makeLevels levels path tree = .ok after) : tree.SameFiles after := by
  induction levels generalizing path after with
  | zero => cases h
  | succ levels ih =>
    rw [FileTree.makeLevels] at h
    split at h
    · obtain rfl := Except.ok.inj h
      exact .refl tree
    · split at h
      · split at h
        · cases h
        · rename_i habove
          exact (ih habove).trans (.ensureDirectory h)
      · exact .ensureDirectory h

theorem SameFiles.makeDirectories {path : FilePath} {after : FileTree}
    (h : tree.makeDirectories path = .ok after) : tree.SameFiles after :=
  .makeLevels h

end FileTree

end SheetCompiler
