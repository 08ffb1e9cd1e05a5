import SheetCompiler.Proofs.DeclaredSchema

/-!
# Segments and their paths

The path of a list of segments can be written in two ways.  Written from left to right, a dot goes
before a segment if something is there already (`FieldPath.written`); built one field name at a time,
a dot goes before a name if the path of its parent is not empty (`FieldPath.extend`).  Both leave out
the dots of empty segments at the front and of no others (`FieldPath.toList_ofSegments`), so they write
the same paths (`FieldPath.written_eq_ofSegments`), and the keys that a column registers are the paths
that are met on the way down a record.

Segments with a dot in them, or without any text, are not told by their path.  All other lists of
segments are: cutting a path gives them back (`FieldPath.steps_ofSegments`).
-/

namespace SheetCompiler

namespace FieldPath

variable {segments others : List String}

/-! ## Two ways to write a path -/

/-- A path written from left to right, with a separator wherever something stands before. -/
def written (segments : List String) : String :=
  segments.foldl (fun path segment =>
    (if path.isEmpty then path else path.push separator) ++ segment) ""

/-- The paths of a list of segments and of all its parents, each of them written by itself. -/
def writtenPrefixes (segments : List String) : List String :=
  (List.range' 1 segments.length).map fun depth => written (segments.take depth)

theorem written_eq_ofSegments (segments : List String) : written segments = ofSegments segments := by
  have hstep : ∀ path segment : String,
      (if path.isEmpty then path else path.push separator) ++ segment = extend path segment := by
    intro path segment
    rw [extend]
    split
    · rename_i hempty
      rw [String.isEmpty_iff.mp hempty, String.empty_append]
    · rw [String.push_eq_append]
      rfl
  rw [written, ofSegments]
  simp only [hstep]

/-- A path has the separators of its segments, those of empty ones at the front left out. -/
theorem toList_ofSegments (segments : List String) : (ofSegments segments).toList =
    Text.glue separator ((segments.dropWhile String.isEmpty).map String.toList) := by
  induction segments with
  | nil => rfl
  | cons segment rest ih =>
    by_cases hempty : segment.isEmpty = true
    · rw [List.dropWhile_cons_of_pos hempty, ← ih, String.isEmpty_iff.mp hempty]
      rfl
    · rw [List.dropWhile_cons_of_neg hempty]
      exact toList_foldl_extend (Bool.eq_false_iff.mpr hempty) rest

/-- Written by itself or in the course of a walk, a parent has the same path. -/
theorem writtenPrefixes_eq_ancestry (segments : List String) :
    writtenPrefixes segments = ancestry "" segments := by
  rw [ancestry_eq_map, writtenPrefixes, List.range'_eq_map_range, List.map_map]
  refine List.map_congr_left fun depth _ => ?_
  rw [Function.comp_apply, written_eq_ofSegments, ofSegments, Nat.add_comm]

theorem getElem?_ancestry (path : String) (segments : List String) {k : Nat}
    (h : k < segments.length) :
    (ancestry path segments)[k]? = some ((segments.take (k + 1)).foldl extend path) := by
  rw [ancestry_eq_map, List.getElem?_map, List.getElem?_range h, Option.map_some]

/-- Plain segments are what their path asks for. -/
theorem steps_ofSegments (h : ∀ segment ∈ segments, IsPlain segment) :
    steps (ofSegments segments) = segments := by
  by_cases hne : segments = []
  · rw [hne]
    rfl
  · rw [steps, pieces_ofSegments hne h, filter_plain h]

/-- The depth of a path is the number of its segments. -/
theorem depth_ofSegments (h : ∀ segment ∈ segments, IsPlain segment) :
    depth (ofSegments segments) = segments.length := by
  by_cases hne : segments = []
  · rw [hne]
    rfl
  · have hfilled : (ofSegments segments).isEmpty = false := by
      refine Bool.eq_false_iff.mpr fun hempty => hne ?_
      rw [← steps_ofSegments h, String.isEmpty_iff.mp hempty]
      rfl
    rw [depth, hfilled, pieces_ofSegments hne h]
    rfl

end FieldPath

namespace Schema

variable {column : Column} {path : String}

/-! ## Registered keys -/

theorem mem_names_types_register (schema : Schema)
    (h : column.segments.length = column.types.length) :
    path ∈ Entries.names (schema.register column).types ↔
      path ∈ FieldPath.ancestry "" column.segments ∨ path ∈ Entries.names schema.types := by
  rw [← Column.ancestors_eq, ← Column.names_typePairs h]
  exact mem_names_foldl_put

theorem mem_names_fallbacks_register (schema : Schema) (h : column.segments ≠ []) :
    path ∈ Entries.names (schema.register column).fallbacks ↔
      column.fallback.isSome ∧ path = FieldPath.ofSegments column.segments ∨
        path ∈ Entries.names schema.fallbacks := by
  rw [register, getLast?_ancestry_segments h]
  cases column.fallback with
  | none => simp
  | some text => simp [Entries.mem_names_put, Column.path]

end Schema

namespace FieldPath

/-- Paths stand for lists of segments.  The paths of a list and of its parents are as many as the
segments, each of them is the walk down the first segments, one name at a time, and is written from left
to right by itself; empty segments at the front leave no trace in it.  A usable column registers types
under these paths, its default under the last one, and nothing else.  Segments with some text and without
a dot come back from their path by cutting it, its depth is their number, and other such segments have
another path. -/
theorem ofSegments_faithful (segments : List String) :
    (ancestry "" segments).length = segments.length ∧
    (∀ k < segments.length,
      (ancestry "" segments)[k]? = some ((segments.take (k + 1)).foldl extend "")) ∧
    ancestry "" segments = writtenPrefixes segments ∧
    ofSegments segments = written segments ∧
    (ofSegments segments).toList =
      Text.glue separator ((segments.dropWhile String.isEmpty).map String.toList) ∧
    (∀ (rules : Rules) (schema : Schema) (column : Column), rules.usable column = true →
      column.segments = segments → ∀ path,
        (path ∈ Entries.names (schema.register column).types ↔
          (∃ k < segments.length, path = (segments.take (k + 1)).foldl extend "") ∨
            path ∈ Entries.names schema.types) ∧
        (path ∈ Entries.names (schema.register column).fallbacks ↔
          column.fallback.isSome ∧ path = segments.foldl extend "" ∨
            path ∈ Entries.names schema.fallbacks)) ∧
    ((∀ segment ∈ segments, IsPlain segment) →
      steps (ofSegments segments) = segments ∧
      depth (ofSegments segments) = segments.length ∧
      ∀ others, (∀ other ∈ others, IsPlain other) → ofSegments others = ofSegments segments →
        others = segments) := by
  refine ⟨length_ancestry "" segments, fun k hk => getElem?_ancestry "" segments hk,
    (writtenPrefixes_eq_ancestry segments).symm, (written_eq_ofSegments segments).symm,
    toList_ofSegments segments, ?_, fun h => ⟨steps_ofSegments h, depth_ofSegments h, ?_⟩⟩
  · rintro rules schema column husable rfl path
    obtain ⟨hne, hlength⟩ := Rules.segments_of_usable husable
    refine ⟨?_, Schema.mem_names_fallbacks_register schema hne⟩
    rw [Schema.mem_names_types_register schema hlength, ancestry_eq_map, List.mem_map]
    refine or_congr_left (exists_congr fun k => ?_)
    rw [List.mem_range, eq_comm]
  · intro others hothers hsame
    rw [← steps_ofSegments hothers, hsame, steps_ofSegments h]

/-- A column of two levels. -/
def nameColumn : Column where
  index := 2
  values := [("var", ["Items", "Name"]), ("type", ["object", "string"])]
  fallback := some "none"

/-- The parent of the field, the depth of its path, and the keys that its column registers. -/
theorem nameColumn_path : ∃ rules, Rules.ofSettings {} = .ok rules ∧
    rules.usable nameColumn = true ∧
    (∀ segment ∈ nameColumn.segments, IsPlain segment) ∧
    steps (ofSegments nameColumn.segments) = ["Items", "Name"] ∧
    depth (ofSegments nameColumn.segments) = 2 ∧
    "Items" ∈ Entries.names ((Schema.register {} nameColumn).types) ∧
    "Items.Name" ∈ Entries.names ((Schema.register {} nameColumn).fallbacks) := by
  have husable : (Rules.ofSettings {}).toOption.map (fun rules => rules.usable nameColumn) =
      some true := by
    decide +kernel
  obtain ⟨rules, hrules, husable⟩ := Option.map_eq_some_iff.mp husable
  have hplain : ∀ segment ∈ nameColumn.segments, IsPlain segment := by
    unfold IsPlain
    decide
  obtain ⟨-, -, -, -, -, hkeys, hcut⟩ := ofSegments_faithful nameColumn.segments
  obtain ⟨hsteps, hdepth, -⟩ := hcut hplain
  have hregister := hkeys rules {} nameColumn husable rfl
  refine ⟨rules, eq_ok_of_toOption hrules, husable, hplain, hsteps, hdepth, ?_, ?_⟩
  · exact (hregister "Items").1.mpr (Or.inl ⟨0, by decide, by decide⟩)
  · exact (hregister "Items.Name").2.mpr (Or.inl ⟨rfl, by decide⟩)

end FieldPath

end SheetCompiler
