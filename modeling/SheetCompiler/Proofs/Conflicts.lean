import Mathlib.Data.List.Nodup
import Mathlib.Data.List.Pairwise
import Mathlib.Order.WellFounded
import SheetCompiler.Proofs.RowLoop

/-!
# Columns that cannot share a record

Two field paths *clash* if one of them goes on where the other one ends: the field at that place
would have to hold a cell and further fields at once.  Equal paths do not clash, since a later cell
replaces an earlier one.

Placing a cell in a raw record fails exactly if its path clashes with one that is there already
(`Record.place_eq_none_iff`), whatever the cell holds.  So the columns alone decide whether there is
a conflict.  It is at the first of them that clashes with one further left (`Column.FirstClash`), and
in the first row that is read (`CompiledSheet.fault_of_rawRows`).
-/

namespace SheetCompiler

namespace FieldPath

/-- One of the paths goes on where the other one ends. -/
def Clash (path other : List String) : Prop := path ≠ other ∧ (path <+: other ∨ other <+: path)

theorem Clash.symm {path other : List String} (h : Clash path other) : Clash other path :=
  ⟨h.1.symm, h.2.symm⟩

theorem clash_nil {path : List String} : Clash path [] ↔ path ≠ [] := by
  constructor
  · exact fun h => h.1
  · exact fun h => ⟨h, Or.inr List.nil_prefix⟩

theorem clash_cons {name key : String} {path other : List String} :
    Clash (name :: path) (key :: other) ↔ name = key ∧ Clash path other := by
  simp only [Clash, ne_eq, List.cons.injEq, List.cons_prefix_cons]
  constructor
  · rintro ⟨hne, ⟨rfl, hprefix⟩ | ⟨rfl, hprefix⟩⟩
    · exact ⟨rfl, fun h => hne ⟨rfl, h⟩, Or.inl hprefix⟩
    · exact ⟨rfl, fun h => hne ⟨rfl, h⟩, Or.inr hprefix⟩
  · rintro ⟨rfl, hne, hprefix⟩
    exact ⟨fun h => hne h.2, hprefix.imp (⟨rfl, ·⟩) (⟨rfl, ·⟩)⟩

end FieldPath

namespace Outline

open FieldPath (Clash clash_cons clash_nil)

/-- Some path of the outline clashes with the given one. -/
def ClashesWith (outline : Outline) (path : List String) : Prop :=
  ∃ other ∈ outline, Clash other path

/-- No path of the outline clashes with an earlier one. -/
def ClashFree (outline : Outline) : Prop :=
  outline.Pairwise fun earlier later => ¬ Clash earlier later

theorem clashesWith_nil {outline : Outline} : outline.ClashesWith [] ↔ ¬ outline.IsLeaf := by
  simp only [ClashesWith, clash_nil, IsLeaf, not_forall, exists_prop]

/-- Where no path ends, clashes are those one level further down. -/
theorem clashesWith_cons {outline : Outline} (h : outline.IsBranch) {name : String}
    {rest : List String} :
    outline.ClashesWith (name :: rest) ↔ (outline.below name).ClashesWith rest := by
  constructor
  · rintro ⟨other, hother, hclash⟩
    obtain ⟨key, more, rfl⟩ := List.exists_cons_of_ne_nil (h other hother)
    obtain ⟨rfl, hmore⟩ := clash_cons.mp hclash
    exact ⟨more, mem_below.mpr hother, hmore⟩
  · rintro ⟨more, hmore, hclash⟩
    exact ⟨name :: more, mem_below.mp hmore, clash_cons.mpr ⟨rfl, hclash⟩⟩

theorem not_clashesWith_of_notMem {outline : Outline} (h : outline.IsBranch) {name : String}
    (hname : name ∉ outline.names) (rest : List String) : ¬ outline.ClashesWith (name :: rest) := by
  rw [clashesWith_cons h, below_eq_nil hname]
  rintro ⟨other, hother, -⟩
  cases hother

theorem clashFree_append_singleton {outline : Outline} {path : List String} :
    (outline ++ [path]).ClashFree ↔ outline.ClashFree ∧ ¬ outline.ClashesWith path := by
  simp [ClashFree, ClashesWith, List.pairwise_append]

/-- Clashes are symmetric, so the order of two paths does not matter. -/
theorem ClashFree.not_clash {outline : Outline} (h : outline.ClashFree) {path other : List String}
    (hpath : path ∈ outline) (hother : other ∈ outline) : ¬ Clash path other := by
  intro hclash
  have hsymm : Std.Symm fun path other => ¬ Clash path other := ⟨fun _ _ hnot hswapped =>
    hnot hswapped.symm⟩
  exact List.Pairwise.forall h hpath hother hclash.1 hclash

end Outline

namespace Column

/-! ## Clashes among columns -/

/-- The columns stand from left to right. -/
def Sorted (columns : List Column) : Prop :=
  columns.Pairwise fun column later => column.index < later.index

/-- The path of the column clashes with that of a column further left. -/
def Clashes (column : Column) (columns : List Column) : Prop :=
  ∃ earlier ∈ columns, earlier.index < column.index ∧
    FieldPath.Clash earlier.segments column.segments

/-- The leftmost of the columns that clash with a column further left. -/
structure FirstClash (column : Column) (columns : List Column) : Prop where
  mem : column ∈ columns
  clashes : column.Clashes columns
  first : ∀ other ∈ columns, other.Clashes columns → column.index ≤ other.index

theorem FirstClash.not_clashFree {column : Column} {columns : List Column}
    (h : column.FirstClash columns) : ¬ (Outline.ofColumns columns).ClashFree := by
  obtain ⟨earlier, hearlier, -, hclash⟩ := h.clashes
  intro hfree
  exact hfree.not_clash (List.mem_map_of_mem hearlier) (List.mem_map_of_mem h.mem) hclash

/-- Columns with the same number are the same. -/
theorem Sorted.eq_of_index_eq {columns : List Column} (h : Sorted columns) {column other : Column}
    (hcolumn : column ∈ columns) (hother : other ∈ columns) (hindex : column.index = other.index) :
    column = other := by
  have hnodup : (columns.map index).Nodup := by
    refine List.pairwise_map.mpr (h.imp fun hlt => ?_)
    exact Nat.ne_of_lt hlt
  exact List.inj_on_of_nodup_map hnodup hcolumn hother hindex

/-- There is only one first clash. -/
theorem FirstClash.unique {column other : Column} {columns : List Column}
    (hsorted : Sorted columns) (h : column.FirstClash columns) (hother : other.FirstClash columns) :
    column = other := by
  refine hsorted.eq_of_index_eq h.mem hother.mem (Nat.le_antisymm ?_ ?_)
  · exact h.first other hother.mem hother.clashes
  · exact hother.first column h.mem h.clashes

/-- There is a first clash exactly if the path of some column goes on where that of another one
ends. -/
theorem exists_firstClash_iff {columns : List Column} (hsorted : Sorted columns) :
    (∃ column : Column, column.FirstClash columns) ↔
      ∃ column ∈ columns, ∃ other ∈ columns,
        column.segments ≠ other.segments ∧ column.segments <+: other.segments := by
  constructor
  · rintro ⟨column, h⟩
    obtain ⟨earlier, hearlier, -, hne, hprefix | hprefix⟩ := h.clashes
    · exact ⟨earlier, hearlier, column, h.mem, hne, hprefix⟩
    · exact ⟨column, h.mem, earlier, hearlier, hne.symm, hprefix⟩
  · rintro ⟨column, hcolumn, other, hother, hne, hprefix⟩
    have hclash : FieldPath.Clash column.segments other.segments := ⟨hne, Or.inl hprefix⟩
    have hsome : ∃ later ∈ columns, later.Clashes columns := by
      rcases Nat.lt_trichotomy column.index other.index with hlt | hsame | hgt
      · exact ⟨other, hother, column, hcolumn, hlt, hclash⟩
      · rw [hsorted.eq_of_index_eq hcolumn hother hsame] at hne
        exact absurd rfl hne
      · exact ⟨column, hcolumn, other, hother, hgt, hclash.symm⟩
    obtain ⟨first, ⟨hfirst, hclashes⟩, hmin⟩ := (measure index).wf.has_min
      {later | later ∈ columns ∧ later.Clashes columns} hsome
    exact ⟨first, hfirst, hclashes, fun later hlater hlaterClashes =>
      Nat.le_of_not_lt (hmin later ⟨hlater, hlaterClashes⟩)⟩

/-- The first clash, found by going through the columns from left to right. -/
theorem firstClash_of_split {front back : List Column} {column : Column}
    (hsorted : Sorted (front ++ column :: back)) (hfree : (Outline.ofColumns front).ClashFree)
    (hclash : (Outline.ofColumns front).ClashesWith column.segments) :
    column.FirstClash (front ++ column :: back) := by
  obtain ⟨-, hback, hcross⟩ := List.pairwise_append.mp hsorted
  have hfront : ∀ other ∈ front ++ column :: back, other.index < column.index → other ∈ front := by
    intro other hother hlt
    rcases List.mem_append.mp hother with hfront | hlater
    · exact hfront
    · rcases List.mem_cons.mp hlater with rfl | hlater
      · exact absurd hlt (Nat.lt_irrefl _)
      · have hgt := List.rel_of_pairwise_cons hback hlater
        exact absurd hlt (Nat.lt_asymm hgt)
  refine ⟨List.mem_append_right _ List.mem_cons_self, ?_, fun other hother hclashes => ?_⟩
  · obtain ⟨path, hpath, hclash⟩ := hclash
    obtain ⟨earlier, hearlier, rfl⟩ := List.mem_map.mp hpath
    exact ⟨earlier, List.mem_append_left _ hearlier,
      hcross earlier hearlier column List.mem_cons_self, hclash⟩
  · obtain ⟨earlier, hearlier, hlt, hclash⟩ := hclashes
    by_contra hbefore
    rw [Nat.not_le] at hbefore
    have hotherFront := hfront other hother hbefore
    have hearlierFront := hfront earlier hearlier (Nat.lt_trans hlt hbefore)
    exact hfree.not_clash (List.mem_map_of_mem hearlierFront) (List.mem_map_of_mem hotherFront)
      hclash

end Column

namespace Worksheet

/-- The cell cannot be read, and the fault says so. -/
def Unreadable (sheet : Worksheet) (row column : Nat) (fault : SheetFault) : Prop :=
  ∃ reason, sheet.cellText row column = .error ⟨reason⟩ ∧
    fault = .unreadableCell sheet.name row column reason

theorem unreadable_of_read {sheet : Worksheet} {row column : Nat} {fault : SheetFault}
    (h : sheet.read row column = .error fault) : sheet.Unreadable row column fault := by
  rw [read] at h
  split at h
  · cases h
  · rename_i cause hcell
    exact ⟨cause.reason, hcell, (Except.error.inj h).symm⟩

end Worksheet

namespace Record

open Value (IsRaw isRaw_nil)

/-! ## Placing a cell -/

/-- A cell cannot be placed exactly if its path clashes with one that is there. -/
theorem place_eq_none_iff (cell : Value) : ∀ {path : List String} {outline : Outline}
    {record : Record}, IsRaw outline (.record record) → path ≠ [] →
    (place cell path record = none ↔ outline.ClashesWith path)
  | [], _, _, _, hne => absurd rfl hne
  | [name], outline, record, h, _ => by
    rw [Outline.clashesWith_cons h.branch, Outline.clashesWith_nil]
    cases hget : Entries.get? name record with
    | none =>
      have hnot := Entries.get?_eq_none_iff.mp hget
      rw [h.names_eq] at hnot
      simp [place, hget, Outline.below_eq_nil hnot, Outline.IsLeaf]
    | some value =>
      have hmem := Entries.mem_of_get? hget
      have hvalue := h.field hmem
      by_cases hrecord : ∃ fields, value = .record fields
      · obtain ⟨fields, rfl⟩ := hrecord
        have hnotLeaf : ¬ (outline.below name).IsLeaf := fun hleaf =>
          hvalue.isCell (h.below_ne_nil hmem) hleaf
        simp [place, hget, hnotLeaf]
      · have hleaf : (outline.below name).IsLeaf := hvalue.isLeaf (not_exists.mp hrecord)
        have hplaced : place cell [name] record = some (Entries.put name cell record) := by
          rw [place, hget]
          split
          · rename_i fields hsame
            exact absurd ⟨fields, Option.some.inj hsame⟩ hrecord
          · rfl
        simp [hplaced, hleaf]
  | name :: next :: rest, outline, record, h, _ => by
    cases hget : Entries.get? name record with
    | none =>
      have hnot := Entries.get?_eq_none_iff.mp hget
      rw [h.names_eq] at hnot
      have hinner : place cell (next :: rest) [] ≠ none := by
        rw [ne_eq, place_eq_none_iff cell isRaw_nil (List.cons_ne_nil _ _)]
        rintro ⟨other, hother, -⟩
        cases hother
      simp [place, hget, hinner, Outline.not_clashesWith_of_notMem h.branch hnot]
    | some value =>
      have hmem := Entries.mem_of_get? hget
      have hvalue := h.field hmem
      rw [Outline.clashesWith_cons h.branch]
      by_cases hrecord : ∃ fields, value = .record fields
      · obtain ⟨fields, rfl⟩ := hrecord
        rw [← place_eq_none_iff cell hvalue (List.cons_ne_nil _ _)]
        simp [place, hget]
      · -- a path ends at the cell, and the new one goes on
        have hleaf : (outline.below name).IsLeaf := hvalue.isLeaf (not_exists.mp hrecord)
        obtain ⟨other, hother⟩ := List.exists_mem_of_ne_nil _ (h.below_ne_nil hmem)
        obtain rfl := hleaf other hother
        have hclash : (outline.below name).ClashesWith (next :: rest) :=
          ⟨[], hother, (FieldPath.clash_nil.mpr (List.cons_ne_nil _ _)).symm⟩
        have hplace : place cell (name :: next :: rest) record = none := by
          rw [place, hget]
          split
          · rename_i hsame
            cases hsame
          · rename_i fields hsame
            exact absurd ⟨fields, Option.some.inj hsame⟩ hrecord
          · rfl
        simp [hplace, hclash]

/-! ## The columns of a row -/

/-- A row that is read has columns that do not clash. -/
theorem clashFree_of_ofRow {sheet : Worksheet} {row : Nat} {columns : List Column} {raw : Record}
    (hne : ∀ column ∈ columns, column.segments ≠ []) (h : ofRow sheet columns row = .ok raw) :
    (Outline.ofColumns columns).ClashFree := by
  induction columns using List.reverseRecOn generalizing raw with
  | nil => exact List.Pairwise.nil
  | append_singleton columns column ih =>
    obtain ⟨hfront, hlast⟩ := List.forall_mem_append.mp hne
    obtain ⟨record, hrow, hadd⟩ := ofRow_append_singleton h
    obtain ⟨text, -, hplace⟩ := addCell_eq_ok hadd
    rw [Outline.ofColumns, List.map_append]
    refine Outline.clashFree_append_singleton.mpr ⟨ih hfront hrow, fun hclash => ?_⟩
    have hnone := (place_eq_none_iff (ofCell text) (isRaw_ofRow hrow)
      (hlast column List.mem_cons_self)).mpr hclash
    rw [hplace] at hnone
    cases hnone

/-- Why the cell of a column is not taken in. -/
theorem addCell_eq_error {sheet : Worksheet} {row : Nat} {record : Record} {column : Column}
    {fault : SheetFault} (hne : column.segments ≠ [])
    (h : addCell sheet row record column = .error fault) :
    sheet.Unreadable row column.index fault ∨
      (∃ cell, place cell column.segments record = none) ∧
        fault = .pathConflict sheet.name row column.index column.path := by
  rw [addCell, if_neg (by simpa using hne)] at h
  rcases bind_eq_error.mp h with hread | ⟨text, -, h⟩
  · exact Or.inl (Worksheet.unreadable_of_read hread)
  · cases hplace : place (ofCell text) column.segments record with
    | none =>
      simp only [hplace] at h
      exact Or.inr ⟨⟨_, hplace⟩, (Except.error.inj h).symm⟩
    | some found =>
      simp only [hplace] at h
      cases h

/-- Why the cells of a row are not taken in. -/
theorem fault_of_ofRow {sheet : Worksheet} {row : Nat} {columns : List Column} {fault : SheetFault}
    (hne : ∀ column ∈ columns, column.segments ≠ []) (hsorted : Column.Sorted columns)
    (h : ofRow sheet columns row = .error fault) :
    (∃ column ∈ columns, sheet.Unreadable row column.index fault) ∨
      ∃ column : Column, column.FirstClash columns ∧
        fault = .pathConflict sheet.name row column.index column.path := by
  obtain ⟨front, column, back, record, rfl, hfront, hadd⟩ := exists_of_foldlM_eq_error h
  obtain ⟨hneFront, hneBack⟩ := List.forall_mem_append.mp hne
  have hneColumn := hneBack column List.mem_cons_self
  rcases addCell_eq_error hneColumn hadd with hread | ⟨⟨cell, hnone⟩, hfault⟩
  · exact Or.inl ⟨column, List.mem_append_right _ List.mem_cons_self, hread⟩
  · have hclash := (place_eq_none_iff cell (isRaw_ofRow hfront) hneColumn).mp hnone
    exact Or.inr ⟨column, Column.firstClash_of_split hsorted (clashFree_of_ofRow hneFront hfront)
      hclash, hfault⟩

end Record

namespace CompiledSheet

/-! ## All rows -/

/-- Why the rows are not read: a cell that cannot be read, or a clash, and this in the first row. -/
theorem fault_of_rawRows {sheet : Worksheet} {columns : List Column} {rows : List Nat}
    {fault : SheetFault} (hne : ∀ column ∈ columns, column.segments ≠ [])
    (hsorted : Column.Sorted columns) (h : rawRows sheet columns rows = .error fault) :
    (∃ row ∈ rows, ∃ column ∈ columns, sheet.Unreadable row column.index fault) ∨
      ∃ row ∈ rows.head?, ∃ column : Column, column.FirstClash columns ∧
        fault = .pathConflict sheet.name row column.index column.path := by
  induction rows with
  | nil => cases h
  | cons row rows ih =>
    rw [rawRows_cons] at h
    rcases bind_eq_error.mp h with hrow | ⟨raw, hrow, hmap⟩
    · rcases Record.fault_of_ofRow hne hsorted hrow with hread | hclash
      · exact Or.inl ⟨row, List.mem_cons_self, hread⟩
      · exact Or.inr ⟨row, rfl, hclash⟩
    · rcases ih (map_eq_error.mp hmap) with ⟨other, hother, hread⟩ | ⟨other, -, column, hclash, -⟩
      · exact Or.inl ⟨other, List.mem_cons_of_mem _ hother, hread⟩
      · -- the first row was read with the same columns
        exact absurd (Record.clashFree_of_ofRow hne hrow) hclash.not_clashFree

end CompiledSheet

end SheetCompiler
