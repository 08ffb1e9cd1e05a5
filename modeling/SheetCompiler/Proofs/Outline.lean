import SheetCompiler.Record.Row

/-!
# The outline of a header

The columns of a header name their fields by lists of segments.  Read together these lists are a
tree: the first segments are the fields of the record, and what is left of the lists that begin with
a segment is the same tree one level further down.  An `Outline` is such a tree in the form in which
the header gives it, as the list of the segment lists.

`names` are the fields right below, in the order in which a record of a row gets them, and `below`
walks into one of them.  A new path at the end of an outline changes these two at one name only
(`names_append_singleton`, `below_append_of_ne`); this is all that the placing of a cell does.
-/

namespace SheetCompiler

/-- What is left of the field paths of a header, seen from one field, from the leftmost column to
the rightmost one. -/
abbrev Outline := List (List String)

namespace Outline

/-- The outline of a record, for the columns of its header. -/
def ofColumns (columns : List Column) : Outline := columns.map Column.segments

/-- The names of the fields right below, each at the place of the first path that uses it. -/
def names (outline : Outline) : List String := (outline.filterMap List.head?).eraseDups

/-- What is left of the paths that go through the field of a name. -/
def below (name : String) (outline : Outline) : Outline :=
  outline.filterMap fun path =>
    match path with
    | [] => none
    | key :: rest => if key = name then some rest else none

/-- Every path ends here. -/
def IsLeaf (outline : Outline) : Prop := ∀ path ∈ outline, path = []

/-- No path ends here. -/
def IsBranch (outline : Outline) : Prop := ∀ path ∈ outline, path ≠ []

/-! ## The names right below -/

@[simp] theorem names_nil : names [] = [] := rfl

theorem mem_names {name : String} {outline : Outline} :
    name ∈ names outline ↔ ∃ rest, name :: rest ∈ outline := by
  rw [names, List.mem_eraseDups, List.mem_filterMap]
  constructor
  · rintro ⟨path, hpath, hhead⟩
    obtain ⟨rest, rfl⟩ := List.head?_eq_some_iff.mp hhead
    exact ⟨rest, hpath⟩
  · rintro ⟨rest, hrest⟩
    exact ⟨name :: rest, hrest, rfl⟩

/-- Dropping repetitions leaves none. -/
theorem nodup_eraseDups {α : Type} [BEq α] [LawfulBEq α] : ∀ entries : List α,
    entries.eraseDups.Nodup
  | [] => by simp
  | entry :: rest => by
    rw [List.eraseDups_cons, List.nodup_cons]
    refine ⟨fun h => ?_, nodup_eraseDups _⟩
    have hne := (List.mem_filter.mp (List.mem_eraseDups.mp h)).2
    simp at hne
termination_by entries => entries.length
decreasing_by
  have := List.length_filter_le (fun b => !b == entry) rest
  simp only [List.length_cons]
  omega

theorem eraseDups_append_singleton {α : Type} [BEq α] [LawfulBEq α] (entries : List α)
    (entry : α) : (entries ++ [entry]).eraseDups =
      if entries.contains entry then entries.eraseDups else entries.eraseDups ++ [entry] := by
  rw [List.eraseDups_append]
  by_cases h : entries.contains entry
  · rw [if_pos h]
    simp only [List.removeAll, List.elem_eq_contains, h, List.filter_cons, List.filter_nil,
      Bool.not_true, Bool.false_eq_true, if_false, List.eraseDups_nil, List.append_nil]
  · rw [if_neg h]
    rw [Bool.not_eq_true] at h
    simp only [List.removeAll, List.elem_eq_contains, h, List.filter_cons, List.filter_nil,
      Bool.not_false, if_true, List.eraseDups_cons, List.eraseDups_nil]

theorem nodup_names (outline : Outline) : (names outline).Nodup := nodup_eraseDups _

/-- A further path adds its first name at the end, unless the name is there already. -/
theorem names_append_singleton (outline : Outline) (name : String) (rest : List String) :
    names (outline ++ [name :: rest]) =
      if name ∈ names outline then names outline else names outline ++ [name] := by
  have hmem : (outline.filterMap List.head?).contains name = true ↔ name ∈ names outline := by
    rw [List.contains_iff_mem, names, List.mem_eraseDups]
  have hsnoc : names (outline ++ [name :: rest]) =
      (outline.filterMap List.head? ++ [name]).eraseDups := by
    rw [names, List.filterMap_append]
    rfl
  rw [hsnoc, eraseDups_append_singleton]
  by_cases h : name ∈ names outline
  · rw [if_pos (hmem.mpr h), if_pos h, names]
  · rw [if_neg (mt hmem.mp h), if_neg h, names]

/-! ## One level further down -/

theorem mem_below {name : String} {rest : List String} {outline : Outline} :
    rest ∈ below name outline ↔ name :: rest ∈ outline := by
  rw [below, List.mem_filterMap]
  constructor
  · rintro ⟨path, hpath, hrest⟩
    cases path with
    | nil => simp at hrest
    | cons key tail =>
      by_cases hkey : key = name
      · simp only [hkey, if_pos, Option.some.injEq] at hrest
        rwa [hkey, hrest] at hpath
      · simp [hkey] at hrest
  · intro h
    exact ⟨name :: rest, h, by simp⟩

theorem below_eq_nil {name : String} {outline : Outline} (h : name ∉ names outline) :
    below name outline = [] := by
  rw [List.eq_nil_iff_forall_not_mem]
  intro rest hrest
  exact h (mem_names.mpr ⟨rest, mem_below.mp hrest⟩)

theorem below_ne_nil {name : String} {outline : Outline} (h : name ∈ names outline) :
    below name outline ≠ [] := by
  obtain ⟨rest, hrest⟩ := mem_names.mp h
  exact List.ne_nil_of_mem (mem_below.mpr hrest)

theorem below_append_self (name : String) (rest : List String) (outline : Outline) :
    below name (outline ++ [name :: rest]) = below name outline ++ [rest] := by
  simp [below]

theorem below_append_of_ne {name key : String} (h : key ≠ name) (rest : List String)
    (outline : Outline) : below name (outline ++ [key :: rest]) = below name outline := by
  simp [below, h]

/-! ## Leaves and branches -/

theorem isLeaf_append {outline : Outline} (h : IsLeaf outline) : IsLeaf (outline ++ [[]]) := by
  intro path hpath
  rcases List.mem_append.mp hpath with hp | hp
  · exact h path hp
  · exact List.mem_singleton.mp hp

theorem isBranch_append {outline : Outline} (h : IsBranch outline) (name : String)
    (rest : List String) : IsBranch (outline ++ [name :: rest]) := by
  intro path hpath
  rcases List.mem_append.mp hpath with hp | hp
  · exact h path hp
  · rw [List.mem_singleton.mp hp]
    exact List.cons_ne_nil _ _

end Outline

end SheetCompiler
