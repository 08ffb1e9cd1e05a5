import Mathlib.Data.List.Destutter
import Mathlib.Data.List.Sort
import Mathlib.Data.Prod.Lex
import SheetCompiler.Files.FilePath

/-!
# The order of paths

Paths are compared by their parts, parts by their kind, and names by their characters.  This is the
lexicographic order of keys (`FilePath.compares_compare`), so it is a linear order up to the parts of a
path, and paths that are equal in it are the same (`FilePath.compare_eq_eq_iff`).  That is what it takes
for `FilePath.sorted`: paths are put in order one by one, each behind the smaller ones, unless one with
the same parts is there already.  The result is strictly increasing, and up to its parts it depends on the
paths alone and not on where and how often they are listed (`FilePath.map_parts_sorted_congr`).

It is also what a stable sort gives when each path that is the same as the one before it is left out
(`FilePath.sorted_eq_dropRepeats`): in both, the first writing of a path is kept.
-/

namespace SheetCompiler

namespace FilePath

variable {path other : FilePath} {paths others ordered : List FilePath}

/-! ## Keys -/

/-- Lists are compared by their first entries, and by the others if these are equal. -/
theorem compares_cons {α : Type} [LinearOrder α] {a b : α} {rest others : List α}
    (first : Ordering) {next : Ordering} (h : first.Compares a b)
    (hnext : next.Compares rest others) :
    Ordering.Compares (match first with | .eq => next | order => order) (a :: rest)
      (b :: others) := by
  cases first with
  | lt => exact List.cons_lt_cons_iff.mpr (Or.inl h)
  | gt => exact List.cons_lt_cons_iff.mpr (Or.inl h)
  | eq =>
    obtain rfl : a = b := h
    cases next with
    | lt => exact List.cons_lt_cons_iff.mpr (Or.inr ⟨rfl, hnext⟩)
    | gt => exact List.cons_lt_cons_iff.mpr (Or.inr ⟨rfl, hnext⟩)
    | eq => exact congrArg (List.cons a) hnext

theorem compares_compareChars (chars others : List Char) :
    (compareChars chars others).Compares (chars.map Char.toNat) (others.map Char.toNat) := by
  induction chars generalizing others with
  | nil =>
    cases others with
    | nil => exact rfl
    | cons d others => exact List.nil_lt_cons _ _
  | cons c rest ih =>
    cases others with
    | nil => exact List.nil_lt_cons _ _
    | cons d others =>
      rw [compareChars]
      split
      · rename_i hlt
        exact compares_cons .lt hlt (ih others)
      · split
        · rename_i hgt
          exact compares_cons .gt hgt (ih others)
        · have heq : c.toNat = d.toNat := by omega
          exact compares_cons .eq heq (ih others)

/-- The code points of a name. -/
def Part.codes : Part → List ℕ
  | .name text => text.toList.map Char.toNat
  | _ => []

/-- The place of a part in the order: its kind, and for names the code points. -/
def Part.key (part : Part) : ℕ ×ₗ List ℕ := toLex (part.rank, part.codes)

theorem Part.key_injective : Function.Injective Part.key := by
  intro part other h
  obtain ⟨hrank, hcodes⟩ := Prod.mk.inj (toLex.injective h)
  cases part <;> cases other <;> try cases hrank
  case name.name text other =>
    have hchars := List.map_injective_iff.mpr (fun _ _ => Char.toNat_inj.mp) hcodes
    rw [String.toList_inj.mp hchars]
  all_goals rfl

theorem Part.compare_of_rank_ne {part other : Part} (h : part.rank ≠ other.rank) :
    part.compare other = Ord.compare part.rank other.rank := by
  cases part with
  | name text =>
    cases other with
    | name other => exact absurd rfl h
    | _ => rfl
  | _ => rfl

theorem Part.compares_compare (part other : Part) :
    (part.compare other).Compares part.key other.key := by
  rcases Nat.lt_trichotomy part.rank other.rank with hlt | hrank | hgt
  · rw [compare_of_rank_ne hlt.ne, Nat.compare_eq_lt.mpr hlt]
    exact Prod.Lex.toLex_lt_toLex.mpr (Or.inl hlt)
  · cases part <;> cases other <;> cases hrank
    case name.name.refl text other =>
      have hchars := compares_compareChars text.toList other.toList
      rw [Part.compare]
      cases hfirst : compareChars text.toList other.toList <;> rw [hfirst] at hchars
      · exact Prod.Lex.toLex_lt_toLex.mpr (Or.inr ⟨rfl, hchars⟩)
      · exact congrArg (fun codes => toLex (3, codes)) hchars
      · exact Prod.Lex.toLex_lt_toLex.mpr (Or.inr ⟨rfl, hchars⟩)
    all_goals rfl
  · rw [compare_of_rank_ne hgt.ne', Nat.compare_eq_gt.mpr hgt]
    exact Prod.Lex.toLex_lt_toLex.mpr (Or.inl hgt)

theorem compares_compareParts (parts others : List Part) :
    (compareParts parts others).Compares (parts.map Part.key) (others.map Part.key) := by
  induction parts generalizing others with
  | nil =>
    cases others with
    | nil => exact rfl
    | cons other others => exact List.nil_lt_cons _ _
  | cons part rest ih =>
    cases others with
    | nil => exact List.nil_lt_cons _ _
    | cons other others =>
      have hpart := part.compares_compare other
      rw [compareParts]
      cases hfirst : part.compare other <;> rw [hfirst] at hpart
      · exact compares_cons _ hpart (ih others)
      · exact compares_cons _ hpart (ih others)
      · exact compares_cons _ hpart (ih others)

/-- The place of a path in the order. -/
def key (path : FilePath) : List (ℕ ×ₗ List ℕ) := path.parts.map Part.key

/-- Paths are compared by their keys. -/
theorem compares_compare (path other : FilePath) :
    (compare path other).Compares path.key other.key :=
  compares_compareParts path.parts other.parts

theorem key_eq_iff : path.key = other.key ↔ path.same other = true := by
  rw [key, key, Part.key_injective.list_map.eq_iff, same, beq_iff_eq]

/-- Paths are equal in the order exactly if they are the same. -/
theorem compare_eq_eq_iff : compare path other = .eq ↔ path.same other = true := by
  rw [(compares_compare path other).eq_eq, key_eq_iff]

theorem compare_eq_lt_iff : compare path other = .lt ↔ path.key < other.key :=
  (compares_compare path other).eq_lt

theorem compare_eq_gt_iff : compare path other = .gt ↔ other.key < path.key :=
  (compares_compare path other).eq_gt

/-- Nothing that comes before another path is the same. -/
theorem not_same_of_lt (h : path.key < other.key) : ¬ path.same other = true := fun hsame =>
  h.ne (key_eq_iff.mpr hsame)

/-! ## Ordered paths -/

/-- Each path comes before the ones behind it, so no two are the same. -/
def Increasing (paths : List FilePath) : Prop :=
  paths.Pairwise fun path other => compare path other = .lt

theorem increasing_iff : Increasing paths ↔ (paths.map key).Pairwise (· < ·) := by
  rw [Increasing, List.pairwise_map]
  simp only [compare_eq_lt_iff]

theorem Increasing.not_same (h : Increasing paths) :
    paths.Pairwise fun path other => ¬ path.same other = true :=
  h.imp fun hlt => not_same_of_lt (compare_eq_lt_iff.mp hlt)

theorem mem_of_mem_insert (h : other ∈ insert path ordered) : other = path ∨ other ∈ ordered := by
  induction ordered with
  | nil => exact Or.inl (List.mem_singleton.mp h)
  | cons next rest ih =>
    rw [insert] at h
    split at h
    · exact List.mem_cons.mp h
    · exact Or.inr h
    · rcases List.mem_cons.mp h with rfl | hrest
      · exact Or.inr List.mem_cons_self
      · exact (ih hrest).imp_right (List.mem_cons_of_mem next)

theorem Increasing.insert (h : Increasing ordered) (path : FilePath) :
    Increasing (insert path ordered) := by
  induction ordered with
  | nil => exact List.pairwise_singleton _ _
  | cons next rest ih =>
    obtain ⟨hnext, hrest⟩ := List.pairwise_cons.mp h
    rw [FilePath.insert]
    split
    · rename_i hlt
      refine List.pairwise_cons.mpr ⟨List.forall_mem_cons.mpr ⟨hlt, fun other hother => ?_⟩, h⟩
      rw [compare_eq_lt_iff] at hlt ⊢
      exact hlt.trans (compare_eq_lt_iff.mp (hnext other hother))
    · exact h
    · rename_i hgt
      refine List.pairwise_cons.mpr ⟨fun other hother => ?_, ih hrest⟩
      rcases mem_of_mem_insert hother with rfl | hother
      · rw [compare_eq_lt_iff, ← compare_eq_gt_iff]
        exact hgt
      · exact hnext other hother

/-- A path is added unless the same one is there, and all others stay. -/
theorem Increasing.mem_insert_iff (h : Increasing ordered) : other ∈ FilePath.insert path ordered ↔
    other ∈ ordered ∨ other = path ∧ ∀ kept ∈ ordered, ¬ kept.same path = true := by
  induction ordered with
  | nil => simp [FilePath.insert]
  | cons next rest ih =>
    obtain ⟨hnext, hrest⟩ := List.pairwise_cons.mp h
    rw [FilePath.insert]
    split
    · rename_i hlt
      have hall : ∀ kept ∈ next :: rest, ¬ kept.same path = true := by
        rw [compare_eq_lt_iff] at hlt
        refine List.forall_mem_cons.mpr ⟨?_, fun kept hkept => ?_⟩ <;> rw [same_comm]
        · exact not_same_of_lt hlt
        · exact not_same_of_lt (hlt.trans (compare_eq_lt_iff.mp (hnext kept hkept)))
      rw [List.mem_cons, or_comm, and_iff_left hall]
    · rename_i heq
      rw [compare_eq_eq_iff, same_comm] at heq
      exact (or_iff_left fun hnew => hnew.2 next List.mem_cons_self heq).symm
    · rename_i hgt
      rw [List.mem_cons, ih hrest, List.forall_mem_cons,
        and_iff_right (not_same_of_lt (compare_eq_gt_iff.mp hgt)), List.mem_cons, or_assoc]

theorem sorted_concat (paths : List FilePath) (path : FilePath) :
    sorted (paths ++ [path]) = insert path (sorted paths) := by
  rw [sorted, sorted, List.foldl_append]
  rfl

theorem increasing_sorted (paths : List FilePath) : Increasing (sorted paths) := by
  induction paths using List.reverseRecOn with
  | nil => exact List.Pairwise.nil
  | append_singleton paths path ih =>
    rw [sorted_concat]
    exact ih.insert path

theorem find?_same_congr (h : path.same other = true) (paths : List FilePath) :
    paths.find? (fun kept => kept.same path) = paths.find? fun kept => kept.same other := by
  rw [same, beq_iff_eq] at h
  simp only [same, h]

/-- Of the paths that are the same, the first one is kept. -/
theorem mem_sorted_iff :
    path ∈ sorted paths ↔ paths.find? (fun other => other.same path) = some path := by
  induction paths using List.reverseRecOn generalizing path with
  | nil => exact iff_of_false List.not_mem_nil nofun
  | append_singleton paths last ih =>
    have hfresh : (∀ kept ∈ sorted paths, ¬ kept.same last = true) ↔
        paths.find? (fun other => other.same last) = none := by
      constructor
      · intro hall
        refine Option.eq_none_iff_forall_ne_some.mpr fun first hfirst => ?_
        have hsame := List.find?_some hfirst
        exact hall first (ih.mpr (find?_same_congr hsame paths ▸ hfirst)) hsame
      · exact fun hnone kept hkept => List.find?_eq_none.mp hnone kept
          (List.mem_of_find?_eq_some (ih.mp hkept))
    rw [sorted_concat, (increasing_sorted paths).mem_insert_iff, hfresh, ih, List.find?_append,
      Option.or_eq_some_iff]
    refine or_congr_right ⟨?_, ?_⟩
    · rintro ⟨rfl, hnone⟩
      exact ⟨hnone, by simp⟩
    · rintro ⟨hnone, hlast⟩
      obtain rfl : last = path := List.mem_singleton.mp (List.mem_of_find?_eq_some hlast) ▸ rfl
      exact ⟨rfl, hnone⟩

theorem mem_of_mem_sorted (h : path ∈ sorted paths) : path ∈ paths :=
  List.mem_of_find?_eq_some (mem_sorted_iff.mp h)

/-- Every path has one with the same parts among the ordered ones. -/
theorem exists_mem_sorted (h : path ∈ paths) : ∃ kept ∈ sorted paths, kept.same path = true := by
  obtain ⟨kept, hkept⟩ := Option.isSome_iff_exists.mp
    (List.find?_isSome.mpr ⟨path, h, same_self path⟩ :
      (paths.find? fun other => other.same path).isSome)
  have hsame := List.find?_some hkept
  exact ⟨kept, mem_sorted_iff.mpr (find?_same_congr hsame paths ▸ hkept), hsame⟩

theorem key_mem_sorted {place : List (ℕ ×ₗ List ℕ)} :
    place ∈ (sorted paths).map key ↔ place ∈ paths.map key := by
  rw [List.mem_map, List.mem_map]
  constructor
  · rintro ⟨path, hpath, hplace⟩
    exact ⟨path, mem_of_mem_sorted hpath, hplace⟩
  · rintro ⟨path, hpath, rfl⟩
    obtain ⟨kept, hkept, hsame⟩ := exists_mem_sorted hpath
    exact ⟨kept, hkept, key_eq_iff.mpr hsame⟩

/-- The order of paths does not depend on where and how often they are listed. -/
theorem map_parts_sorted_congr (h : ∀ path, path ∈ others ↔ path ∈ paths) :
    (sorted others).map parts = (sorted paths).map parts := by
  have hkeys : (sorted others).map key = (sorted paths).map key := by
    refine (increasing_iff.mp (increasing_sorted others)).eq_of_mem_iff
      (increasing_iff.mp (increasing_sorted paths)) fun place => ?_
    rw [key_mem_sorted, key_mem_sorted, List.mem_map, List.mem_map]
    exact exists_congr fun path => and_congr_left' (h path)
  refine (List.map_injective_iff.mpr Part.key_injective.list_map) ?_
  rw [List.map_map, List.map_map]
  exact hkeys

/-! ## Sorting and leaving out repeated paths -/

/-- Whether a path does not come behind another one. -/
def atMost (path other : FilePath) : Bool := compare path other != .gt

theorem atMost_iff : path.atMost other = true ↔ path.key ≤ other.key := by
  rw [atMost, bne_iff_ne, ne_eq, compare_eq_gt_iff, not_lt]

theorem atMost_trans (path other third : FilePath) (h : path.atMost other = true)
    (hother : other.atMost third = true) : path.atMost third = true := by
  rw [atMost_iff] at h hother ⊢
  exact h.trans hother

theorem atMost_total (path other : FilePath) :
    (path.atMost other || other.atMost path) = true := by
  rw [Bool.or_eq_true, atMost_iff, atMost_iff]
  exact le_total _ _

/-- Sorting keeps the order of paths that are the same. -/
theorem filter_mergeSort (path : FilePath) (paths : List FilePath) :
    (paths.mergeSort atMost).filter (fun other => other.same path) =
      paths.filter fun other => other.same path := by
  have halike : (paths.filter fun other => other.same path).Pairwise
      fun first second => first.atMost second = true := by
    refine List.pairwise_of_forall_mem_list fun first hfirst second hsecond => ?_
    have hkey := key_eq_iff.mpr (List.mem_filter.mp hfirst).2
    rw [atMost_iff, hkey, key_eq_iff.mpr (List.mem_filter.mp hsecond).2]
  have hsublist := (List.sublist_mergeSort atMost_trans atMost_total halike
    List.filter_sublist).filter fun other => other.same path
  rw [List.filter_filter] at hsublist
  simp only [Bool.and_self] at hsublist
  exact (hsublist.eq_of_length
    ((List.mergeSort_perm paths atMost).filter _).length_eq.symm).symm

/-- Leave out each path that is the same as the one kept before it. -/
def dropRepeats (paths : List FilePath) : List FilePath :=
  paths.destutter fun path other => ¬ path.same other = true

theorem lt_of_not_same (h : path.atMost other = true) (hnot : ¬ path.same other = true) :
    path.key < other.key := lt_of_le_of_ne (atMost_iff.mp h) (mt key_eq_iff.mp hnot)

theorem mem_destutter'_iff {first : FilePath} {rest : List FilePath}
    (h : (first :: rest).Pairwise fun path other => path.atMost other = true) :
    path ∈ rest.destutter' (fun path other => ¬ path.same other = true) first ↔
      (first :: rest).find? (fun other => other.same path) = some path := by
  induction rest generalizing first with
  | nil =>
    rw [List.destutter'_nil, List.mem_singleton, List.find?_singleton,
      Option.ite_none_right_eq_some, Option.some_inj, eq_comm (a := path)]
    exact ⟨fun hsame => ⟨hsame ▸ same_self first, hsame⟩, And.right⟩
  | cons next rest ih =>
    obtain ⟨hfirst, hrest⟩ := List.pairwise_cons.mp h
    by_cases hsame : first.same next = true
    · have hpath : next.same path = first.same path := by
        rw [same, beq_iff_eq] at hsame
        rw [same, same, hsame]
      rw [List.destutter'_cons_neg _ (not_not.mpr hsame), ih (h.sublist (by simp))]
      simp only [List.find?_cons, hpath]
      cases first.same path <;> rfl
    · rw [List.destutter'_cons_pos _ hsame, List.mem_cons, ih hrest, List.find?_cons (a := first)]
      cases hpath : first.same path with
      | true =>
        rw [Option.some_inj, eq_comm]
        refine or_iff_left fun hfind => ?_
        -- a path behind `next` comes after the first one
        have hlt := lt_of_not_same (hfirst next List.mem_cons_self) hsame
        have hle : next.key ≤ path.key := by
          rcases List.mem_cons.mp (List.mem_of_find?_eq_some hfind) with rfl | hmem
          · exact le_rfl
          · exact atMost_iff.mp ((List.pairwise_cons.mp hrest).1 path hmem)
        exact not_same_of_lt (hlt.trans_le hle) hpath
      | false =>
        refine or_iff_right ?_
        rintro rfl
        rw [same_self] at hpath
        cases hpath

/-- Of paths in order, the first of those that are the same are kept. -/
theorem mem_dropRepeats_iff (h : paths.Pairwise fun path other => path.atMost other = true) :
    path ∈ dropRepeats paths ↔ paths.find? (fun other => other.same path) = some path := by
  cases paths with
  | nil => exact iff_of_false List.not_mem_nil nofun
  | cons first rest => exact mem_destutter'_iff h

theorem dropRepeats_sublist (paths : List FilePath) : (dropRepeats paths).Sublist paths :=
  List.destutter_sublist (fun path other : FilePath => ¬ path.same other = true) paths

theorem increasing_dropRepeats (h : paths.Pairwise fun path other => path.atMost other = true) :
    Increasing (dropRepeats paths) := by
  have hchain := List.isChain_iff_getElem.mp
    (List.isChain_destutter (fun path other : FilePath => ¬ path.same other = true) paths)
  have horder := List.isChain_iff_getElem.mp (h.sublist (dropRepeats_sublist paths)).isChain
  rw [increasing_iff, ← List.isChain_iff_pairwise, List.isChain_map]
  exact List.isChain_iff_getElem.mpr fun i hi => lt_of_not_same (horder i hi) (hchain i hi)

/-- Ordering paths one by one is sorting them all and leaving out repeated ones. -/
theorem sorted_eq_dropRepeats (paths : List FilePath) :
    sorted paths = dropRepeats (paths.mergeSort atMost) := by
  have hsort := List.pairwise_mergeSort atMost_trans atMost_total paths
  have hirrefl : Std.Irrefl fun path other => compare path other = .lt :=
    ⟨fun path h => (compare_eq_lt_iff.mp h).ne rfl⟩
  have hantisymm : Std.Antisymm fun path other => compare path other = .lt :=
    ⟨fun path other h hback => absurd (compare_eq_lt_iff.mp h) (compare_eq_lt_iff.mp hback).asymm⟩
  refine (increasing_sorted paths).eq_of_mem_iff (increasing_dropRepeats hsort) fun path => ?_
  rw [mem_sorted_iff, mem_dropRepeats_iff hsort, ← List.head?_filter, ← List.head?_filter,
    filter_mergeSort]

end FilePath

end SheetCompiler
