import Mathlib.Data.List.Induction
import SheetCompiler.Proofs.Outline
import SheetCompiler.Proofs.Steps

/-!
# Raw records

The record of a row is *raw*: it branches exactly as the outline of its columns does, it holds a
cell or nothing wherever a path ends, and it holds no lists.  Placing one more cell keeps a record
raw, for the outline with one more path (`isRaw_of_place`), and so the records of rows are raw
(`isRaw_ofRow`).

A path of the outline leads to exactly one cell of a raw record.  Where several columns share a path
that is the cell of the last of them (`descend_ofRow`).
-/

namespace SheetCompiler

/-- No later column has the same field path. -/
def Column.LastIn (column : Column) (columns : List Column) : Prop :=
  ∃ front back, columns = front ++ column :: back ∧
    ∀ later ∈ back, later.segments ≠ column.segments

namespace Column

theorem LastIn.mem {column : Column} {columns : List Column} (h : column.LastIn columns) :
    column ∈ columns := by
  obtain ⟨front, back, rfl, -⟩ := h
  exact List.mem_append_right _ List.mem_cons_self

theorem lastIn_append_singleton {column last : Column} {columns : List Column}
    (h : column.LastIn (columns ++ [last])) :
    column = last ∨ column.LastIn columns ∧ last.segments ≠ column.segments := by
  obtain ⟨front, back, hsplit, hlater⟩ := h
  rcases List.eq_nil_or_concat back with rfl | ⟨back, final, rfl⟩
  · exact Or.inl (List.append_inj_right' hsplit rfl |> List.cons.inj |>.1).symm
  · rw [List.concat_eq_append, ← List.cons_append, ← List.append_assoc] at hsplit
    obtain ⟨hfront, hlast⟩ := List.append_inj' hsplit rfl
    obtain ⟨rfl, -⟩ := List.cons.inj hlast
    refine Or.inr ⟨⟨front, back, hfront, fun later hmem => hlater later ?_⟩, hlater last ?_⟩
    · rw [List.concat_eq_append]
      exact List.mem_append_left _ hmem
    · rw [List.concat_eq_append]
      exact List.mem_append_right _ (List.mem_singleton.mpr rfl)

/-- Every field path has a last column. -/
theorem exists_lastIn {column : Column} {columns : List Column} (h : column ∈ columns) :
    ∃ last : Column, last.LastIn columns ∧ last.segments = column.segments := by
  induction columns using List.reverseRecOn with
  | nil => simp at h
  | append_singleton columns final ih =>
    by_cases hsame : final.segments = column.segments
    · exact ⟨final, ⟨columns, [], rfl, by simp⟩, hsame⟩
    · have hmem : column ∈ columns := by
        rcases List.mem_append.mp h with hc | hc
        · exact hc
        · exact absurd (congrArg segments (List.mem_singleton.mp hc).symm) hsame
      obtain ⟨last, ⟨front, back, hsplit, hlater⟩, hlast⟩ := ih hmem
      refine ⟨last, ⟨front, back ++ [final], by simp [hsplit], ?_⟩, hlast⟩
      intro later hmem'
      rcases List.mem_append.mp hmem' with hb | hf
      · exact hlater later hb
      · rw [List.mem_singleton.mp hf, hlast]
        exact hsame

end Column

namespace Value

/-- A filled cell or nothing. -/
def IsCell : Value → Prop
  | .null => True
  | .scalar text => text.isEmpty = false
  | .record _ | .list _ => False

/-- A value that branches as an outline does and holds a cell wherever a path of it ends. -/
inductive IsRaw : Outline → Value → Prop
  | cell {outline : Outline} {value : Value} (hleaf : outline.IsLeaf) (hcell : value.IsCell) :
      IsRaw outline value
  | record {outline : Outline} {fields : List (String × Value)} (hbranch : outline.IsBranch)
      (hnames : Entries.names fields = outline.names)
      (hfields : ∀ field ∈ fields, IsRaw (outline.below field.1) field.2) :
      IsRaw outline (.record fields)

theorem IsRaw.branch {outline : Outline} {fields : Record} (h : IsRaw outline (.record fields)) :
    outline.IsBranch := by
  cases h with
  | cell hleaf hcell => exact hcell.elim
  | record hbranch hnames hfields => exact hbranch

theorem IsRaw.names_eq {outline : Outline} {fields : Record} (h : IsRaw outline (.record fields)) :
    Entries.names fields = outline.names := by
  cases h with
  | cell hleaf hcell => exact hcell.elim
  | record hbranch hnames hfields => exact hnames

theorem IsRaw.field {outline : Outline} {fields : Record} (h : IsRaw outline (.record fields))
    {field : String × Value} (hmem : field ∈ fields) :
    IsRaw (outline.below field.1) field.2 := by
  cases h with
  | cell hleaf hcell => exact hcell.elim
  | record hbranch hnames hfields => exact hfields field hmem

theorem IsRaw.nodup {outline : Outline} {fields : Record} (h : IsRaw outline (.record fields)) :
    (Entries.names fields).Nodup := by
  rw [h.names_eq]
  exact outline.nodup_names

/-- A raw record has every field that the outline names. -/
theorem IsRaw.exists_get? {outline : Outline} {fields : Record} (h : IsRaw outline (.record fields))
    {name : String} {rest : List String} (hpath : name :: rest ∈ outline) :
    ∃ value, Entries.get? name fields = some value ∧ (name, value) ∈ fields ∧
      rest ∈ outline.below name := by
  have hname : name ∈ Entries.names fields := by
    rw [h.names_eq]
    exact Outline.mem_names.mpr ⟨rest, hpath⟩
  obtain ⟨value, hget⟩ := Entries.exists_get? hname
  exact ⟨value, hget, Entries.mem_of_get? hget, Outline.mem_below.mpr hpath⟩

/-- Below a field of a raw record there are paths. -/
theorem IsRaw.below_ne_nil {outline : Outline} {fields : Record}
    (h : IsRaw outline (.record fields)) {field : String × Value} (hmem : field ∈ fields) :
    outline.below field.1 ≠ [] := by
  have hname := Entries.mem_names_of_mem hmem
  rw [h.names_eq] at hname
  exact Outline.below_ne_nil hname

/-- Where paths end there are cells only. -/
theorem IsRaw.isCell {outline : Outline} {value : Value} (h : IsRaw outline value)
    (hne : outline ≠ []) (hleaf : outline.IsLeaf) : value.IsCell := by
  cases h with
  | cell _ hcell => exact hcell
  | record hbranch hnames hfields =>
    obtain ⟨path, hpath⟩ := List.exists_mem_of_ne_nil _ hne
    exact absurd (hleaf path hpath) (hbranch path hpath)

/-- Where paths go on there are records only. -/
theorem IsRaw.exists_record {outline : Outline} {value : Value} (h : IsRaw outline value)
    (hne : outline ≠ []) (hbranch : outline.IsBranch) : ∃ fields, value = .record fields := by
  cases h with
  | cell hleaf hcell =>
    obtain ⟨path, hpath⟩ := List.exists_mem_of_ne_nil _ hne
    exact absurd (hleaf path hpath) (hbranch path hpath)
  | record _ hnames hfields => exact ⟨_, rfl⟩

/-- What is no record is a cell, at the end of its paths. -/
theorem IsRaw.isLeaf {outline : Outline} {value : Value} (h : IsRaw outline value)
    (hrecord : ∀ fields, value ≠ .record fields) : outline.IsLeaf := by
  cases h with
  | cell hleaf hcell => exact hleaf
  | record hbranch hnames hfields => exact absurd rfl (hrecord _)

theorem isRaw_nil : IsRaw [] (.record []) :=
  .record (by simp [Outline.IsBranch]) rfl (by simp)

/-- Writing a field that is raw one level further down. -/
theorem isRaw_put {outline : Outline} {record : Record} {name : String} {rest : List String}
    {value : Value} (h : IsRaw outline (.record record))
    (hvalue : IsRaw (outline.below name ++ [rest]) value) :
    IsRaw (outline ++ [name :: rest]) (.record (Entries.put name value record)) := by
  refine .record (Outline.isBranch_append h.branch name rest) ?_ fun field hmem => ?_
  · rw [Outline.names_append_singleton, ← h.names_eq]
    by_cases hname : name ∈ Entries.names record
    · rw [if_pos hname, Entries.names_put_of_mem hname]
    · rw [if_neg hname, Entries.names_put_of_notMem hname]
  · rcases Entries.mem_put h.nodup hmem with rfl | ⟨hold, hne⟩
    · rwa [Outline.below_append_self]
    · rw [Outline.below_append_of_ne hne.symm]
      exact h.field hold

theorem isCell_ofCell (text : Option String) : (Record.ofCell text).IsCell := by
  cases text with
  | none => trivial
  | some text =>
    rw [Record.ofCell_some]
    by_cases hblank : Text.isBlankText text = true
    · rw [if_pos hblank]
      trivial
    · rw [if_neg hblank]
      show text.isEmpty = false
      rw [Bool.eq_false_iff]
      intro hempty
      rw [String.isEmpty_iff.mp hempty] at hblank
      exact hblank rfl

end Value

namespace Record

open Value (IsRaw isRaw_nil isRaw_put isCell_ofCell descend descend_nil descendField_eq_getD
  itemsOrSelf)

/-! ## Placing a cell -/

/-- A cell is written where there are no further fields. -/
theorem place_singleton {cell : Value} {name : String} {record placed : Record}
    (h : place cell [name] record = some placed) :
    placed = Entries.put name cell record ∧
      ∀ fields, Entries.get? name record ≠ some (.record fields) := by
  rw [place] at h
  split at h
  · simp at h
  · rename_i hget
    exact ⟨(Option.some.inj h).symm, hget⟩

/-- Placing a cell keeps a record raw, for one more path. -/
theorem isRaw_of_place {cell : Value} (hcell : cell.IsCell) : ∀ {path : List String}
    {outline : Outline} {record placed : Record}, IsRaw outline (.record record) →
    place cell path record = some placed → IsRaw (outline ++ [path]) (.record placed)
  | [], _, _, _, _, hplace => by simp [place] at hplace
  | [name], outline, record, placed, h, hplace => by
    have hleaf : (outline.below name).IsLeaf := by
      cases hget : Entries.get? name record with
      | none =>
        have hnot := Entries.get?_eq_none_iff.mp hget
        rw [h.names_eq] at hnot
        rw [Outline.below_eq_nil hnot]
        simp [Outline.IsLeaf]
      | some value =>
        refine (h.field (Entries.mem_of_get? hget)).isLeaf fun fields hfields => ?_
        exact (place_singleton hplace).2 fields (hfields ▸ hget)
    rw [(place_singleton hplace).1]
    exact isRaw_put h (.cell (Outline.isLeaf_append hleaf) hcell)
  | name :: next :: rest, outline, record, placed, h, hplace => by
    rw [place] at hplace
    split at hplace
    · rename_i hget
      obtain ⟨inner, hinner, rfl⟩ := Option.map_eq_some_iff.mp hplace
      have hnot := Entries.get?_eq_none_iff.mp hget
      rw [h.names_eq] at hnot
      refine isRaw_put h ?_
      rw [Outline.below_eq_nil hnot]
      exact isRaw_of_place hcell isRaw_nil hinner
    · rename_i fields hget
      obtain ⟨inner, hinner, rfl⟩ := Option.map_eq_some_iff.mp hplace
      exact isRaw_put h (isRaw_of_place hcell (h.field (Entries.mem_of_get? hget)) hinner)
    · simp at hplace

theorem descend_record_cons (name : String) (rest : List String) (fields : Record) :
    descend (name :: rest) (.record fields) =
      ((Entries.get? name fields).map (descend rest)).getD [] := by
  rw [descend, descendField_eq_getD]

/-- The new path leads to the cell that was placed. -/
theorem descend_place_self {cell : Value} (hcell : cell.IsCell) : ∀ {path : List String}
    {record placed : Record}, place cell path record = some placed →
    descend path (.record placed) = [cell]
  | [], _, _, hplace => by simp [place] at hplace
  | [name], record, placed, hplace => by
    rw [(place_singleton hplace).1, descend_record_cons, Entries.get?_put_self, Option.map_some,
      Option.getD_some, descend_nil]
    cases cell with
    | null => rfl
    | scalar text => rfl
    | record fields => exact hcell.elim
    | list items => exact hcell.elim
  | name :: next :: rest, record, placed, hplace => by
    rw [place] at hplace
    split at hplace
    · obtain ⟨inner, hinner, rfl⟩ := Option.map_eq_some_iff.mp hplace
      rw [descend_record_cons, Entries.get?_put_self]
      exact descend_place_self hcell hinner
    · obtain ⟨inner, hinner, rfl⟩ := Option.map_eq_some_iff.mp hplace
      rw [descend_record_cons, Entries.get?_put_self]
      exact descend_place_self hcell hinner
    · simp at hplace

/-- The other paths lead where they led before. -/
theorem descend_place_of_ne {cell : Value} : ∀ {path other : List String} {outline : Outline}
    {record placed : Record}, IsRaw outline (.record record) → other ∈ outline → other ≠ path →
    place cell path record = some placed →
    descend other (.record placed) = descend other (.record record)
  | [], _, _, _, _, _, _, _, hplace => by simp [place] at hplace
  | _ :: _, [], _, _, _, h, hother, _, _ => absurd rfl (h.branch _ hother)
  | [name], key :: more, outline, record, placed, h, hother, hne, hplace => by
    obtain ⟨hput, hget'⟩ := place_singleton hplace
    by_cases hkey : key = name
    · -- below a cell there is no further path
      exfalso
      obtain ⟨value, hget, hmem, hbelow⟩ := h.exists_get? (hkey ▸ hother)
      have hleaf := (h.field hmem).isLeaf fun fields hfields => hget' fields (hfields ▸ hget)
      exact hne (by rw [hkey, hleaf more hbelow])
    · rw [hput, descend_record_cons, descend_record_cons, Entries.get?_put_of_ne hkey]
  | name :: next :: rest, key :: more, outline, record, placed, h, hother, hne, hplace => by
    rw [place] at hplace
    split at hplace
    · rename_i hget
      obtain ⟨inner, hinner, rfl⟩ := Option.map_eq_some_iff.mp hplace
      have hkey : key ≠ name := by
        rintro rfl
        have hnot := Entries.get?_eq_none_iff.mp hget
        rw [h.names_eq] at hnot
        exact hnot (Outline.mem_names.mpr ⟨more, hother⟩)
      rw [descend_record_cons, descend_record_cons, Entries.get?_put_of_ne hkey]
    · rename_i fields hget
      obtain ⟨inner, hinner, rfl⟩ := Option.map_eq_some_iff.mp hplace
      by_cases hkey : key = name
      · rw [hkey, descend_record_cons, descend_record_cons, Entries.get?_put_self, hget]
        exact descend_place_of_ne (h.field (Entries.mem_of_get? hget))
          (Outline.mem_below.mpr (hkey ▸ hother)) (fun he => hne (by rw [hkey, he])) hinner
      · rw [descend_record_cons, descend_record_cons, Entries.get?_put_of_ne hkey]
    · simp at hplace

/-! ## The record of a row -/

/-- What taking in the cell of a column does, when it succeeds. -/
theorem addCell_eq_ok {sheet : Worksheet} {row : Nat} {record placed : Record} {column : Column}
    (h : addCell sheet row record column = .ok placed) :
    ∃ text, sheet.read row column.index = .ok text ∧
      place (ofCell text) column.segments record = some placed := by
  rw [addCell] at h
  by_cases hempty : column.segments.isEmpty = true
  · rw [if_pos hempty] at h
    cases h
  · rw [if_neg hempty] at h
    obtain ⟨text, hread, h⟩ := bind_eq_ok.mp h
    refine ⟨text, hread, ?_⟩
    cases hplace : place (ofCell text) column.segments record with
    | none =>
      simp only [hplace] at h
      cases h
    | some found =>
      simp only [hplace] at h
      rw [Except.ok.inj h]

theorem ofRow_append_singleton {sheet : Worksheet} {row : Nat} {columns : List Column}
    {column : Column} {placed : Record} (h : ofRow sheet (columns ++ [column]) row = .ok placed) :
    ∃ record, ofRow sheet columns row = .ok record ∧
      addCell sheet row record column = .ok placed := by
  rw [ofRow_append] at h
  obtain ⟨record, hrow, h⟩ := bind_eq_ok.mp h
  rw [List.foldlM_cons] at h
  obtain ⟨last, hlast, h⟩ := bind_eq_ok.mp h
  rw [List.foldlM_nil] at h
  rw [← Except.ok.inj h]
  exact ⟨record, hrow, hlast⟩

/-- The record of a row is raw. -/
theorem isRaw_ofRow {sheet : Worksheet} {row : Nat} {columns : List Column} {raw : Record}
    (h : ofRow sheet columns row = .ok raw) :
    IsRaw (Outline.ofColumns columns) (.record raw) := by
  induction columns using List.reverseRecOn generalizing raw with
  | nil =>
    rw [ofRow_nil, Except.ok.injEq] at h
    rw [← h]
    exact isRaw_nil
  | append_singleton columns column ih =>
    obtain ⟨record, hrow, hadd⟩ := ofRow_append_singleton h
    obtain ⟨text, -, hplace⟩ := addCell_eq_ok hadd
    rw [Outline.ofColumns, List.map_append]
    exact isRaw_of_place (isCell_ofCell text) (ih hrow) hplace

/-- The path of a column leads to the cell of the last column with this path. -/
theorem descend_ofRow {sheet : Worksheet} {row : Nat} {columns : List Column} {raw : Record}
    (h : ofRow sheet columns row = .ok raw) {column : Column} (hlast : column.LastIn columns) :
    ∃ text, sheet.read row column.index = .ok text ∧
      descend column.segments (.record raw) = [ofCell text] := by
  induction columns using List.reverseRecOn generalizing raw with
  | nil => exact absurd hlast.mem List.not_mem_nil
  | append_singleton columns final ih =>
    obtain ⟨record, hrow, hadd⟩ := ofRow_append_singleton h
    obtain ⟨text, hread, hplace⟩ := addCell_eq_ok hadd
    rcases Column.lastIn_append_singleton hlast with rfl | ⟨hbefore, hne⟩
    · exact ⟨text, hread, descend_place_self (isCell_ofCell text) hplace⟩
    · obtain ⟨found, hfound, hdescend⟩ := ih hrow hbefore
      refine ⟨found, hfound, ?_⟩
      rw [← hdescend]
      exact descend_place_of_ne (isRaw_ofRow hrow)
        (List.mem_map_of_mem hbefore.mem) hne.symm hplace

end Record

end SheetCompiler
