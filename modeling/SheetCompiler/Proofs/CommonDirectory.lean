import SheetCompiler.Proofs.ParentPaths

/-!
# The common directory of files

The deepest directory with all files is found by climbing.  A candidate is the directory of the first
file, and for each further one it goes up until that is below it.  A step up leaves out the last part, so
what all directories so far begin with is still there (`FilePath.Climbs.isLongestFront`), and after the
last directory the candidate is the longest front of all of them (`FilePath.isLongestFront_foldlM`).

A candidate that is the root, or has no parts left, cannot go up any further.  There is no common
directory then, and the current one is given, just as where the longest front is empty.

The climb is bounded in `FilePath.climb`, but the bound is not what ends it: a step up leaves one part
less, so there are no more steps than parts (`FilePath.climbs_climb`).
-/

namespace SheetCompiler

namespace FilePath

variable {common directory above : FilePath} {paths others files : List FilePath}
  {front : List Part} {outcome result : Option FilePath}

/-! ## Longest fronts -/

/-- All paths begin with these parts, and whatever all of them begin with is at the front of it. -/
structure IsLongestFront (front : List Part) (paths : List FilePath) : Prop where
  common : ∀ path ∈ paths, front <+: path.parts
  longest : ∀ other : List Part, (∀ path ∈ paths, other <+: path.parts) → other <+: front

theorem IsLongestFront.congr (h : ∀ path, path ∈ others ↔ path ∈ paths)
    (hfront : IsLongestFront front paths) : IsLongestFront front others where
  common path hpath := hfront.common path ((h path).mp hpath)
  longest other hother := hfront.longest other fun path hpath => hother path ((h path).mpr hpath)

theorem IsLongestFront.unique {other : List Part} (h : IsLongestFront front paths)
    (hother : IsLongestFront other paths) : front = other := by
  have hle := hother.longest front h.common
  have hge := h.longest other hother.common
  exact hle.eq_of_length (Nat.le_antisymm hle.length_le hge.length_le)

/-- Further paths do not make an empty front longer. -/
theorem IsLongestFront.of_nil (h : IsLongestFront [] paths) (hsubset : paths ⊆ others) :
    IsLongestFront [] others where
  common _ _ := List.nil_prefix
  longest other hother := h.longest other fun path hpath => hother path (hsubset hpath)

theorem isLongestFront_pair : IsLongestFront front [common, directory] ↔
    (front <+: common.parts ∧ front <+: directory.parts) ∧
      ∀ other : List Part, other <+: common.parts → other <+: directory.parts →
        other <+: front := by
  have hboth : ∀ other : List Part, (∀ path ∈ [common, directory], other <+: path.parts) ↔
      other <+: common.parts ∧ other <+: directory.parts := fun other => by
    rw [List.forall_mem_cons, List.forall_mem_singleton]
  constructor
  · rintro ⟨hcommon, hlongest⟩
    exact ⟨(hboth front).mp hcommon, fun other hfirst hsecond =>
      hlongest other ((hboth other).mpr ⟨hfirst, hsecond⟩)⟩
  · rintro ⟨hcommon, hlongest⟩
    refine ⟨(hboth front).mpr hcommon, fun other hother => ?_⟩
    obtain ⟨hfirst, hsecond⟩ := (hboth other).mp hother
    exact hlongest other hfirst hsecond

/-! ## Climbing -/

/-- Climbing from a candidate until a directory is below it, without a bound. -/
inductive Climbs (directory : FilePath) : FilePath → Option FilePath → Prop
  | stays {common : FilePath} (h : directory.startsWith common = true) :
      Climbs directory common (some common)
  | rises {common above : FilePath} {outcome : Option FilePath}
      (h : directory.startsWith common = false) (habove : common.parent? = some above)
      (hrest : Climbs directory above outcome) : Climbs directory common outcome
  | ends {common : FilePath} (h : directory.startsWith common = false)
      (htop : common.parent? = none) : Climbs directory common none

theorem startsWith_iff : directory.startsWith common = true ↔ common.parts <+: directory.parts :=
  List.isPrefixOf_iff_prefix

/-- The bound on the levels is enough for every climb. -/
theorem climbs_climb (directory : FilePath) {levels : Nat} (h : common.parts.length < levels) :
    Climbs directory common (climb levels common directory) := by
  induction levels generalizing common with
  | zero => exact absurd h (Nat.not_lt_zero _)
  | succ levels ih =>
    rw [climb]
    split
    · rename_i hbelow
      exact .stays hbelow
    · rename_i hbelow
      rw [Bool.not_eq_true] at hbelow
      cases hparent : common.parent? with
      | none => exact .ends hbelow hparent
      | some above =>
        obtain ⟨last, hparts, -⟩ := parts_of_parent? hparent
        rw [hparts, List.length_append, List.length_singleton] at h
        exact .rises hbelow hparent (ih (by omega))

/-- A climb comes to one outcome. -/
theorem Climbs.unique (h : Climbs directory common outcome) (hother : Climbs directory common result) :
    outcome = result := by
  induction h with
  | stays h =>
    cases hother with
    | stays _ => rfl
    | rises hbelow _ _ => cases h.symm.trans hbelow
    | ends hbelow _ => cases h.symm.trans hbelow
  | rises hbelow habove _ ih =>
    cases hother with
    | stays h => cases h.symm.trans hbelow
    | rises _ hsame hrest =>
      obtain rfl := Option.some.inj (habove.symm.trans hsame)
      exact ih hrest
    | ends _ htop => cases habove.symm.trans htop
  | ends hbelow htop =>
    cases hother with
    | stays h => cases h.symm.trans hbelow
    | rises _ habove _ => cases habove.symm.trans htop
    | ends _ _ => rfl

/-- The parts of the directory that a climb comes to, none if there is no such directory. -/
def frontOf (outcome : Option FilePath) : List Part := (outcome.map parts).getD []

/-- What two paths begin with is in front of the last part of the first one, if that path is no
beginning of the other. -/
theorem prefix_of_rises (hbelow : directory.startsWith common = false) {other rest : List Part}
    {last : Part} (hparts : common.parts = rest ++ [last]) (hcommon : other <+: common.parts)
    (hdirectory : other <+: directory.parts) : other <+: rest := by
  rw [hparts, List.prefix_concat_iff, ← hparts] at hcommon
  refine hcommon.resolve_left fun hsame => ?_
  rw [hsame, ← startsWith_iff, hbelow] at hdirectory
  cases hdirectory

/-- A climb comes to the longest front of the candidate and the directory. -/
theorem Climbs.isLongestFront (h : Climbs directory common outcome) :
    IsLongestFront (frontOf outcome) [common, directory] := by
  rw [isLongestFront_pair]
  induction h with
  | stays h => exact ⟨⟨List.prefix_rfl, startsWith_iff.mp h⟩, fun other hother _ => hother⟩
  | rises hbelow habove _ ih =>
    obtain ⟨last, hparts, -⟩ := parts_of_parent? habove
    obtain ⟨hcommon, hlongest⟩ := ih
    refine ⟨⟨?_, hcommon.2⟩, fun other hfirst hsecond => ?_⟩
    · rw [hparts]
      exact hcommon.1.trans (List.prefix_append _ _)
    · exact hlongest other (prefix_of_rises hbelow hparts hfirst hsecond) hsecond
  | @ends common hbelow htop =>
    refine ⟨⟨List.nil_prefix, List.nil_prefix⟩, fun other hfirst hsecond => ?_⟩
    rcases parent?_eq_none_iff.mp htop with hnil | hroot
    · rwa [hnil] at hfirst
    · exact prefix_of_rises hbelow (hroot.trans (List.nil_append _).symm) hfirst hsecond

/-! ## One directory after another -/

/-- A further directory takes from the front what it does not begin with. -/
theorem IsLongestFront.append_singleton (h : IsLongestFront common.parts paths)
    (hclimb : Climbs directory common outcome) :
    IsLongestFront (frontOf outcome) (paths ++ [directory]) := by
  obtain ⟨hcommon, hlongest⟩ := isLongestFront_pair.mp hclimb.isLongestFront
  refine ⟨fun path hpath => ?_, fun other hother => ?_⟩
  · rcases List.mem_append.mp hpath with hold | hnew
    · exact hcommon.1.trans (h.common path hold)
    · rw [List.mem_singleton.mp hnew]
      exact hcommon.2
  · rw [List.forall_mem_append, List.forall_mem_singleton] at hother
    exact hlongest other (h.longest other hother.1) hother.2

/-- After all directories the candidate is the longest front of them. -/
theorem isLongestFront_foldlM (h : IsLongestFront common.parts paths) (rest : List FilePath) :
    IsLongestFront (frontOf (rest.foldlM
      (fun common directory => climb (common.parts.length + 1) common directory) common))
        (paths ++ rest) := by
  induction rest generalizing common paths with
  | nil =>
    rw [List.append_nil]
    exact h
  | cons directory rest ih =>
    have hstep := h.append_singleton
      (climbs_climb directory (Nat.lt_succ_self common.parts.length))
    rw [List.foldlM_cons]
    cases hclimb : climb (common.parts.length + 1) common directory with
    | none =>
      rw [hclimb] at hstep
      refine IsLongestFront.of_nil hstep fun path hpath => ?_
      rw [← List.singleton_append, ← List.append_assoc]
      exact List.mem_append_left _ hpath
    | some found =>
      rw [hclimb] at hstep
      have hrest := ih hstep
      rwa [List.append_assoc, List.singleton_append] at hrest

/-- The candidate after all directories, if it has parts, and else the current directory. -/
theorem commonDirectory_eq (files : List FilePath) {first : FilePath} {rest : List FilePath}
    (h : files.filterMap parent? = first :: rest) : ∃ outcome,
      IsLongestFront (frontOf outcome) (first :: rest) ∧
      (frontOf outcome = [] → commonDirectory files = ⟨"."⟩) ∧
      (frontOf outcome ≠ [] → (commonDirectory files).parts = frontOf outcome) := by
  have hfirst : IsLongestFront first.parts [first] :=
    ⟨List.forall_mem_singleton.mpr List.prefix_rfl, fun other hother =>
      hother first List.mem_cons_self⟩
  refine ⟨_, isLongestFront_foldlM hfirst rest, ?_⟩
  rw [commonDirectory, h]
  dsimp only
  cases rest.foldlM
      (fun common directory => climb (common.parts.length + 1) common directory) first with
  | none => exact ⟨fun _ => rfl, fun hne => absurd rfl hne⟩
  | some common =>
    have hfront : frontOf (some common) = common.parts := rfl
    rw [hfront, ne_eq, parts_eq_nil_iff, ← String.isEmpty_iff]
    dsimp only
    exact ⟨fun hempty => by rw [if_pos hempty], fun hempty => by rw [if_neg hempty]⟩

theorem commonDirectory_of_nil (h : files.filterMap parent? = []) :
    commonDirectory files = ⟨"."⟩ := by
  rw [commonDirectory, h]

/-- Files in any order, and any of them more than once, have the same common directory. -/
theorem same_commonDirectory (h : ∀ file, file ∈ others ↔ file ∈ files) :
    (commonDirectory others).same (commonDirectory files) = true := by
  have hdirectories : ∀ directory,
      directory ∈ others.filterMap parent? ↔ directory ∈ files.filterMap parent? := by
    intro directory
    rw [List.mem_filterMap, List.mem_filterMap]
    exact exists_congr fun file => and_congr_left' (h file)
  cases hfiles : files.filterMap parent? with
  | nil =>
    have hothers : others.filterMap parent? = [] :=
      List.eq_nil_iff_forall_not_mem.mpr fun directory hmem => by
        rw [hdirectories, hfiles] at hmem
        cases hmem
    rw [commonDirectory_of_nil hfiles, commonDirectory_of_nil hothers]
    exact same_self _
  | cons first rest =>
    have hmem : first ∈ others.filterMap parent? := by
      rw [hdirectories, hfiles]
      exact List.mem_cons_self
    obtain ⟨next, more, hothers⟩ := List.exists_cons_of_ne_nil (List.ne_nil_of_mem hmem)
    obtain ⟨outcome, hfront, hcurrent, hparts⟩ := commonDirectory_eq files hfiles
    obtain ⟨result, hfront', hcurrent', hparts'⟩ := commonDirectory_eq others hothers
    rw [hfiles, hothers] at hdirectories
    have hsame : frontOf result = frontOf outcome := hfront'.unique (hfront.congr hdirectories)
    by_cases hnil : frontOf outcome = []
    · rw [hcurrent hnil, hcurrent' (hsame.trans hnil)]
      exact same_self _
    · rw [same, beq_iff_eq, hparts hnil, hparts' (hsame ▸ hnil), hsame]

/-- The common directory is the deepest one with all files.  A file stands in the directory that has its
parts but the last one, and only the empty path and the root stand in none.  If there are directories at
all, the common one has the longest parts that all of them begin with, and is the current directory if
there are no such parts.  The same files in another order, or some of them repeated, have the same common
directory.  No climb from a candidate is cut short by the bound on its levels. -/
theorem commonDirectory_longest (files : List FilePath) :
    (∀ file : FilePath, (file.parent? = none ↔ file.parts = [] ∨ file.parts = [.root]) ∧
      ∀ directory, file.parent? = some directory →
        ∃ last, file.parts = directory.parts ++ [last]) ∧
    (files.filterMap parent? = [] → commonDirectory files = ⟨"."⟩) ∧
    (files.filterMap parent? ≠ [] → ∃ front, IsLongestFront front (files.filterMap parent?) ∧
      (front = [] → commonDirectory files = ⟨"."⟩) ∧
      (front ≠ [] → (commonDirectory files).parts = front)) ∧
    (∀ others, (∀ file, file ∈ others ↔ file ∈ files) →
      (commonDirectory others).same (commonDirectory files) = true) ∧
    ∀ (common directory : FilePath) (outcome : Option FilePath),
      Climbs directory common outcome ↔
        outcome = climb (common.parts.length + 1) common directory := by
  refine ⟨fun file => ⟨parent?_eq_none_iff, fun directory hparent => ?_⟩, commonDirectory_of_nil,
    fun hne => ?_, fun others => same_commonDirectory, fun common directory outcome => ?_⟩
  · obtain ⟨last, hparts, -⟩ := parts_of_parent? hparent
    exact ⟨last, hparts⟩
  · obtain ⟨first, rest, hdirectories⟩ := List.exists_cons_of_ne_nil hne
    obtain ⟨outcome, hfront, hrest⟩ := commonDirectory_eq files hdirectories
    rw [hdirectories]
    exact ⟨_, hfront, hrest⟩
  · have hclimb := climbs_climb directory (Nat.lt_succ_self common.parts.length)
    exact ⟨fun h => h.unique hclimb, fun hsame => hsame ▸ hclimb⟩

/-- Files in one directory, which is written in three ways. -/
def scatteredFiles : List FilePath := [⟨"./a//b/x.csv"⟩, ⟨"./a/./c/y.json"⟩, ⟨"./a/../z.csv"⟩]

/-- Their common directory, whatever file comes first. -/
theorem scatteredFiles_common : scatteredFiles.filterMap parent? ≠ [] ∧
    IsLongestFront [.here, .name "a"] (scatteredFiles.filterMap parent?) ∧
    commonDirectory scatteredFiles = ⟨"./a"⟩ ∧
    commonDirectory scatteredFiles.reverse = ⟨"./a"⟩ := by
  have hne : scatteredFiles.filterMap parent? ≠ [] := by decide
  have hcommon : commonDirectory scatteredFiles = ⟨"./a"⟩ := by decide +kernel
  have hreverse : commonDirectory scatteredFiles.reverse = ⟨"./a"⟩ := by decide +kernel
  obtain ⟨-, -, hlongest, -⟩ := commonDirectory_longest scatteredFiles
  obtain ⟨front, hfront, hempty, hparts⟩ := hlongest hne
  refine ⟨hne, ?_, hcommon, hreverse⟩
  have hfilled : front ≠ [] := by
    intro hnil
    have hdot := (hempty hnil).symm.trans hcommon
    revert hdot
    decide
  have hfound : front = [.here, .name "a"] := by
    rw [← hparts hfilled, hcommon]
    decide +kernel
  exact hfound ▸ hfront

end FilePath

end SheetCompiler
