import Mathlib.Data.List.Basic
import SheetCompiler.Proofs.LeafDefaults
import SheetCompiler.Proofs.RowLoop

/-!
# What dotted paths address

The segments of a column say where its values are, one name at a time: the names are followed from a
record into its fields, each list on the way stands for its items, and a list at the end gives its items
(`Value.follow`).  The dotted path of the column stands for its segments in three places: a value is
queried by it, and types and defaults are registered under it and under the paths of its parents.

A name may hold a dot, and then a path does not say what its segments are.  The query takes the path
apart at every dot, and columns with different segments may register the same key
(`CompiledSheet.dotted_names_misaddress`).  Columns without a dot in their segments are addressed by
their paths: the query finds what the segments lead to, and a key that is a prefix of two such columns
is the same prefix of both (`CompiledSheet.path_addresses`).
-/

namespace SheetCompiler

namespace Value

/-! ## Following names -/

mutual

/-- What a value holds under a name: the field of a record, and for a list what its items hold. -/
def children (name : String) : Value → List Value
  | .record fields => (Entries.get? name fields).toList
  | .list items => childrenOfItems name items
  | .null => []
  | .scalar _ => []

/-- What the items of a list hold under a name, one after another. -/
def childrenOfItems (name : String) : List Value → List Value
  | [] => []
  | item :: rest => children name item ++ childrenOfItems name rest

end

/-- What is found by following names, one after another; lists at the end give their items. -/
def follow (names : List String) (value : Value) : List Value :=
  (names.foldl (fun found name => found.flatMap (children name)) [value]).flatMap itemsOrSelf

theorem childrenOfItems_eq_flatMap (name : String) (items : List Value) :
    childrenOfItems name items = items.flatMap (children name) := by
  induction items with
  | nil => rfl
  | cons item rest ih => rw [childrenOfItems, ih, List.flatMap_cons]

/-- Descending by a list of names goes on from what the first name holds. -/
theorem descend_cons (name : String) (rest : List String) (value : Value) :
    descend (name :: rest) value = (children name value).flatMap (descend rest) := by
  induction value using treeInduction with
  | null => rfl
  | scalar text => rfl
  | record fields _ =>
    rw [descend, descendField_eq_getD, children]
    cases Entries.get? name fields with
    | none => rfl
    | some value => exact (List.append_nil _).symm
  | list items ih =>
    rw [descend, descendItems_eq_flatMap, children, childrenOfItems_eq_flatMap, List.flatMap_assoc]
    exact List.flatMap_congr ih

/-- Descending finds what following the names finds. -/
theorem descend_eq_follow (names : List String) (value : Value) :
    descend names value = follow names value := by
  have hall : ∀ values : List Value,
      (names.foldl (fun found name => found.flatMap (children name)) values).flatMap itemsOrSelf =
        values.flatMap (descend names) := by
    induction names with
    | nil => exact fun values => List.flatMap_congr fun value _ => (descend_nil value).symm
    | cons name rest ih =>
      intro values
      rw [List.foldl_cons, ih, List.flatMap_assoc]
      exact List.flatMap_congr fun value _ => (descend_cons name rest value).symm
  rw [follow, hall, List.flatMap_singleton]

/-- A path of plain segments addresses what the segments lead to. -/
theorem query_ofSegments {segments : List String} (hne : segments ≠ [])
    (h : ∀ segment ∈ segments, FieldPath.IsPlain segment) (value : Value) :
    query value (FieldPath.ofSegments segments) = follow segments value := by
  rw [query, FieldPath.steps, FieldPath.pieces_ofSegments hne h, FieldPath.filter_plain h,
    descend_eq_follow]

end Value

/-! ## Registered keys -/

namespace FieldPath

/-- The paths of a segment list and of its parents are the paths of its prefixes. -/
theorem exists_prefix_of_mem_ancestry {path start : String} {segments : List String}
    (h : path ∈ ancestry start segments) :
    ∃ front, front <+: segments ∧ path = front.foldl extend start := by
  induction segments generalizing start with
  | nil => cases h
  | cons segment rest ih =>
    rw [ancestry_cons, List.mem_cons] at h
    rcases h with rfl | h
    · exact ⟨[segment], ⟨rest, rfl⟩, rfl⟩
    · obtain ⟨front, ⟨back, rfl⟩, rfl⟩ := ih h
      exact ⟨segment :: front, ⟨back, rfl⟩, rfl⟩

/-- Prefixes of lists of plain segments with the same path are the same. -/
theorem prefix_eq_of_path_eq {segments others front back : List String}
    (hsegments : ∀ segment ∈ segments, IsPlain segment) (hothers : ∀ other ∈ others, IsPlain other)
    (hfront : front <+: segments) (hback : back <+: others)
    (h : ofSegments front = ofSegments back) : front = back := by
  have hplain : ∀ segment ∈ front, IsPlain segment := fun segment hsegment =>
    hsegments segment (hfront.subset hsegment)
  have hplain' : ∀ segment ∈ back, IsPlain segment := fun segment hsegment =>
    hothers segment (hback.subset hsegment)
  by_cases hne : back = []
  · by_cases hne' : front = []
    · rw [hne, hne']
    · exact (ofSegments_inj hplain' hplain hne' h.symm).symm
  · exact ofSegments_inj hplain hplain' hne h

end FieldPath

namespace Schema

/-- Whether types or defaults are registered under a path. -/
def HasKey (schema : Schema) (path : String) : Prop :=
  path ∈ Entries.names schema.types ∨ path ∈ Entries.names schema.fallbacks

/-- Types are registered under the paths of columns and of their parents only. -/
theorem exists_column_of_mem_types {rules : Rules} {sheet : Worksheet} {schema : Schema}
    (h : ofSheet rules sheet = .ok schema) : ∀ path ∈ Entries.names schema.types,
      ∃ column ∈ schema.columns, path ∈ FieldPath.ancestry "" column.segments := by
  obtain ⟨extent, header, -, -, hbuild⟩ := ofSheet_eq_ok h
  obtain ⟨-, -, -, hcolumns⟩ := build_eq_ok hbuild
  refine foldlM_preserves (fun schema : Schema => ∀ path ∈ Entries.names schema.types,
    ∃ column ∈ schema.columns, path ∈ FieldPath.ancestry "" column.segments) ?_ ?_ hcolumns
  · intro before index _ after hbefore hstep path hpath
    obtain ⟨column, -, rfl⟩ := addColumn_eq_ok hstep
    by_cases husable : rules.usable column = true
    · rw [if_pos husable] at hpath ⊢
      have hcolumns : (before.register column).columns = before.columns ++ [column] := rfl
      rw [hcolumns]
      rcases mem_names_foldl_put.mp hpath with hnew | hold
      · obtain ⟨entry, hentry, rfl⟩ := List.mem_map.mp hnew
        exact ⟨column, List.mem_append_right _ List.mem_cons_self, (List.of_mem_zip hentry).1⟩
      · obtain ⟨other, hother, hmem⟩ := hbefore path hold
        exact ⟨other, List.mem_append_left _ hother, hmem⟩
    · rw [if_neg husable] at hpath ⊢
      exact hbefore path hpath
  · intro path hpath
    cases hpath

/-- Every key is the path of a prefix of some column's segments. -/
theorem exists_prefix_of_hasKey {rules : Rules} {sheet : Worksheet} {schema : Schema}
    (h : ofSheet rules sheet = .ok schema) {path : String} (hkey : schema.HasKey path) :
    ∃ column ∈ schema.columns, ∃ front, front <+: column.segments ∧
      path = FieldPath.ofSegments front := by
  rcases hkey with htype | hfallback
  · obtain ⟨column, hcolumn, hmem⟩ := exists_column_of_mem_types h path htype
    exact ⟨column, hcolumn, FieldPath.exists_prefix_of_mem_ancestry hmem⟩
  · obtain ⟨text, htext⟩ := Entries.exists_get? hfallback
    obtain ⟨-, column, hcolumn, rfl⟩ := (lawful_ofSheet h).fallbacks path text htext
    exact ⟨column, hcolumn, column.segments, List.prefix_rfl, rfl⟩

end Schema

/-! ## Columns and their paths -/

/-- No segment of the column has a dot in it. -/
def Column.IsPlain (column : Column) : Prop :=
  ∀ segment ∈ column.segments, FieldPath.separator ∉ segment.toList

namespace CompiledSheet

/-- A column without dots in its segments is addressed by its path: in every record the query finds
what following the segments finds, in order.  Every key is the path of a prefix of some column's
segments, and for columns without dots this prefix is told by the key. -/
theorem path_addresses {rules : Rules} {sheet : Worksheet} {schema : Schema}
    (hschema : Schema.ofSheet rules sheet = .ok schema) :
    (∀ compiled, ofWorksheet rules sheet = .ok compiled →
      ∀ column ∈ schema.columns, column.IsPlain → ∀ record ∈ compiled.records,
        Value.query (.record record) column.path =
          Value.follow column.segments (.record record)) ∧
    (∀ path, schema.HasKey path →
      (∃ column ∈ schema.columns, ∃ front, front <+: column.segments ∧
        path = FieldPath.ofSegments front) ∧
      ∀ column ∈ schema.columns, ∀ other ∈ schema.columns, column.IsPlain → other.IsPlain →
        ∀ front back, front <+: column.segments → back <+: other.segments →
          path = FieldPath.ofSegments front → path = FieldPath.ofSegments back → front = back) := by
  have hlawful := Schema.lawful_ofSheet hschema
  have hplain : ∀ column ∈ schema.columns, column.IsPlain →
      ∀ segment ∈ column.segments, FieldPath.IsPlain segment :=
    fun column hcolumn hdots segment hsegment =>
      ⟨(hlawful.segments column hcolumn).2 segment hsegment, hdots segment hsegment⟩
  constructor
  · intro compiled _ column hcolumn hdots record _
    exact Value.query_ofSegments (hlawful.segments column hcolumn).1 (hplain column hcolumn hdots) _
  · intro path hkey
    refine ⟨Schema.exists_prefix_of_hasKey hschema hkey, ?_⟩
    rintro column hcolumn other hother hdots hdots' front back hfront hback rfl hpath
    exact FieldPath.prefix_eq_of_path_eq (hplain column hcolumn hdots)
      (hplain other hother hdots') hfront hback hpath

/-- A column of a dotted name beside a field of a field that is spelled in the same way. -/
def dotted : Grid where
  name := "Dotted"
  rows := [
    ["#var", "a.b", "a", "c"],
    ["#var", "", "b", ""],
    ["#type", "string", "object", "list"],
    ["#type", "", "int", ""],
    ["", "x", "5", "y"],
    ["", "", "", "z"]]

theorem dotted_compiles : ∃ rules schema compiled, Rules.ofSettings {} = .ok rules ∧
    Schema.ofSheet rules dotted.worksheet = .ok schema ∧
    ofWorksheet rules dotted.worksheet = .ok compiled ∧
    schema.columns.map Column.segments = [["a.b"], ["a", "b"], ["c"]] ∧
    schema.types = [("a.b", "int"), ("a", "object"), ("c", "list")] ∧
    compiled.records = [[("a.b", .scalar "x"), ("a", .record [("b", .scalar "5")]),
      ("c", .list [.scalar "y", .scalar "z"])]] := by
  have hsome : ((Rules.ofSettings {}).toOption.bind fun rules =>
      (Schema.ofSheet rules dotted.worksheet).toOption.bind fun schema =>
        (ofWorksheet rules dotted.worksheet).toOption.map fun compiled =>
          (schema.columns.map Column.segments, schema.types, compiled.records)) =
      some ([["a.b"], ["a", "b"], ["c"]], [("a.b", "int"), ("a", "object"), ("c", "list")],
        [[("a.b", .scalar "x"), ("a", .record [("b", .scalar "5")]),
          ("c", .list [.scalar "y", .scalar "z"])]]) := by
    decide +kernel
  obtain ⟨rules, hrules, hsome⟩ := Option.bind_eq_some_iff.mp hsome
  obtain ⟨schema, hschema, hsome⟩ := Option.bind_eq_some_iff.mp hsome
  obtain ⟨compiled, hcompiled, hall⟩ := Option.map_eq_some_iff.mp hsome
  obtain ⟨hcolumns, hrest⟩ := Prod.mk.inj hall
  obtain ⟨htypes, hrecords⟩ := Prod.mk.inj hrest
  exact ⟨rules, schema, compiled, eq_ok_of_toOption hrules, eq_ok_of_toOption hschema,
    eq_ok_of_toOption hcompiled, hcolumns, htypes, hrecords⟩

/-- The path of the list addresses its items, though another column has a dot in its name. -/
theorem dotted_path_addresses : ∃ rules schema compiled, Rules.ofSettings {} = .ok rules ∧
    Schema.ofSheet rules dotted.worksheet = .ok schema ∧
    ofWorksheet rules dotted.worksheet = .ok compiled ∧
    ∃ column ∈ schema.columns, column.IsPlain ∧ ∃ record ∈ compiled.records,
      Value.query (.record record) column.path =
        Value.follow column.segments (.record record) ∧
      Value.follow column.segments (.record record) = [.scalar "y", .scalar "z"] := by
  obtain ⟨rules, schema, compiled, hrules, hschema, hcompiled, hcolumns, -, hrecords⟩ :=
    dotted_compiles
  have hlist : ["c"] ∈ schema.columns.map Column.segments := by
    rw [hcolumns]
    decide
  obtain ⟨column, hcolumn, hsegments⟩ := List.mem_map.mp hlist
  have hplain : column.IsPlain := by
    rw [Column.IsPlain, hsegments]
    decide
  refine ⟨rules, schema, compiled, hrules, hschema, hcompiled, column, hcolumn, hplain, _,
    by rw [hrecords]; exact List.mem_cons_self, ?_, ?_⟩
  · refine (path_addresses hschema).1 compiled hcompiled column hcolumn hplain _ ?_
    rw [hrecords]
    exact List.mem_cons_self
  · rw [hsegments]
    decide +kernel

/-- The path of a column with a dotted name finds the values of another column, and both columns
register their types under it. -/
theorem dotted_names_misaddress : ∃ rules schema compiled, Rules.ofSettings {} = .ok rules ∧
    Schema.ofSheet rules dotted.worksheet = .ok schema ∧
    ofWorksheet rules dotted.worksheet = .ok compiled ∧
    ∃ column ∈ schema.columns, ∃ other ∈ schema.columns, ∃ record ∈ compiled.records,
      Value.query (.record record) column.path ≠ Value.follow column.segments (.record record) ∧
      column.segments ≠ other.segments ∧ column.path = other.path ∧
      schema.HasKey column.path := by
  obtain ⟨rules, schema, compiled, hrules, hschema, hcompiled, hcolumns, htypes, hrecords⟩ :=
    dotted_compiles
  have hdotted : ["a.b"] ∈ schema.columns.map Column.segments := by
    rw [hcolumns]
    decide
  have hnested : ["a", "b"] ∈ schema.columns.map Column.segments := by
    rw [hcolumns]
    decide
  obtain ⟨column, hcolumn, hsegments⟩ := List.mem_map.mp hdotted
  obtain ⟨other, hother, hothers⟩ := List.mem_map.mp hnested
  refine ⟨rules, schema, compiled, hrules, hschema, hcompiled, column, hcolumn, other, hother, _,
    by rw [hrecords]; exact List.mem_cons_self, ?_, ?_, ?_, ?_⟩
  · rw [Column.path, hsegments]
    decide +kernel
  · rw [hsegments, hothers]
    decide
  · rw [Column.path, Column.path, hsegments, hothers]
    decide
  · refine Or.inl ?_
    rw [Column.path, hsegments, htypes]
    decide

end CompiledSheet

end SheetCompiler
