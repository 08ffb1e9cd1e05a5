import SheetCompiler.Proofs.BlankedColumns
import SheetCompiler.Proofs.DeclaredSchema
import SheetCompiler.Proofs.Rearrangement

/-!
# Repeated paths

Of two columns with the same names the later one wins.  It overwrites what the earlier one has
registered and read, in three places: the types on the way to the field, the cells of every row, and
the default, if it has one.  So the earlier column might as well have nothing in its header
(`CompiledSheet.later_column_wins`), with one exception.  A later column without a default does not
overwrite one, and where no other column does so either, the default of the earlier column is in
force (`Column.KeepsDefault`) and may be seen in the records
(`CompiledSheet.earlier_default_survives`).

The columns of the worksheet with the earlier column blanked are those of the worksheet without it
(`Rules.Blanks.schemas`).  What is read from a list of pairs does not depend on pairs that are
written over later (`Entries.get?_ofPairs_drop`), and the last column with some names is the same one
in both lists (`Column.Sorted.lastIn_without`).
-/

namespace SheetCompiler

namespace Entries

variable {α : Type} {name : String}

theorem get?_append (name : String) (front back : Entries α) :
    get? name (front ++ back) = (get? name front).or (get? name back) := by
  induction front with
  | nil => rfl
  | cons entry rest ih =>
    rw [List.cons_append, get?, get?]
    split
    · rfl
    · exact ih

/-- What was written last is what is read first from behind. -/
theorem get?_ofPairs (name : String) (pairs : Entries α) :
    get? name (ofPairs pairs) = get? name pairs.reverse := by
  induction pairs using List.reverseRecOn with
  | nil => rfl
  | append_singleton pairs pair ih =>
    have hput : ofPairs (pairs ++ [pair]) = put pair.1 pair.2 (ofPairs pairs) := by
      rw [ofPairs, List.foldl_append]
      rfl
    rw [hput, List.reverse_append, List.reverse_singleton, List.singleton_append, get?]
    split
    · rename_i hname
      rw [← hname, get?_put_self]
    · rename_i hname
      rw [get?_put_of_ne (Ne.symm hname), ih]

/-- Pairs whose name is written again later do not matter. -/
theorem get?_ofPairs_drop {front dropped back : Entries α}
    (h : name ∈ names dropped → name ∈ names back) :
    get? name (ofPairs (front ++ dropped ++ back)) = get? name (ofPairs (front ++ back)) := by
  have hnames : ∀ entries : Entries α, name ∈ names entries.reverse ↔ name ∈ names entries := by
    intro entries
    rw [names, names, List.map_reverse, List.mem_reverse]
  rw [get?_ofPairs, get?_ofPairs, List.reverse_append, List.reverse_append, List.reverse_append,
    get?_append, get?_append, get?_append]
  by_cases hback : name ∈ names back
  · obtain ⟨value, hvalue⟩ := exists_get? ((hnames back).mpr hback)
    rw [hvalue, Option.some_or, Option.some_or]
  · rw [get?_eq_none_iff.mpr (mt (hnames dropped).mp (mt h hback)), Option.none_or]

end Entries

/-! ## Lists without one column -/

namespace Column

variable {columns front back : List Column} {column later : Column} {index : Nat}

/-- The columns without the one at a place. -/
def without (index : Nat) (columns : List Column) : List Column :=
  columns.filter fun column => column.index ≠ index

theorem mem_without : column ∈ without index columns ↔ column ∈ columns ∧ column.index ≠ index := by
  rw [without, List.mem_filter, decide_eq_true_eq]

/-- Of columns from left to right, a later one stands behind. -/
theorem Sorted.mem_back (h : Sorted (front ++ column :: back))
    (hlater : later ∈ front ++ column :: back) (hlt : column.index < later.index) :
    later ∈ back := by
  obtain ⟨-, -, hcross⟩ := List.pairwise_append.mp h
  rcases List.mem_append.mp hlater with hfront | hlater
  · exact absurd hlt (Nat.lt_asymm (hcross later hfront column List.mem_cons_self))
  · rcases List.mem_cons.mp hlater with rfl | hback
    · exact absurd hlt (Nat.lt_irrefl _)
    · exact hback

theorem Sorted.without_eq (h : Sorted (front ++ column :: back)) :
    without column.index (front ++ column :: back) = front ++ back := by
  obtain ⟨-, hback, hcross⟩ := List.pairwise_append.mp h
  rw [without, List.filter_append, List.filter_cons_of_neg (by simp)]
  congr 1
  · refine List.filter_eq_self.mpr fun other hother => decide_eq_true ?_
    exact Nat.ne_of_lt (hcross other hother column List.mem_cons_self)
  · refine List.filter_eq_self.mpr fun other hother => decide_eq_true ?_
    exact Nat.ne_of_gt (List.rel_of_pairwise_cons hback hother)

/-- The last column with some names is the rightmost one. -/
theorem Sorted.lastIn_iff (h : Sorted columns) : column.LastIn columns ↔
    column ∈ columns ∧
      ∀ later ∈ columns, column.index < later.index → later.segments ≠ column.segments := by
  constructor
  · rintro ⟨front, back, rfl, hback⟩
    exact ⟨List.mem_append_right _ List.mem_cons_self, fun later hlater hlt =>
      hback later (h.mem_back hlater hlt)⟩
  · rintro ⟨hmem, hlater⟩
    obtain ⟨front, back, rfl⟩ := List.append_of_mem hmem
    obtain ⟨-, hback, -⟩ := List.pairwise_append.mp h
    refine ⟨front, back, rfl, fun later hmem => ?_⟩
    exact hlater later (List.mem_append_right _ (List.mem_cons_of_mem _ hmem))
      (List.rel_of_pairwise_cons hback hmem)

/-- A column whose names come again further right is not missed. -/
theorem Sorted.lastIn_without (h : Sorted columns) (hlater : later ∈ columns)
    (hlt : column.index < later.index) (hsame : later.segments = column.segments) {last : Column}
    (hcolumn : column ∈ columns) (hlast : last.LastIn columns) :
    last.LastIn (without column.index columns) := by
  have hsorted : Sorted (without column.index columns) := List.Pairwise.filter _ h
  obtain ⟨hmem, hrightmost⟩ := h.lastIn_iff.mp hlast
  refine hsorted.lastIn_iff.mpr ⟨mem_without.mpr ⟨hmem, fun hindex => ?_⟩, fun other hother => ?_⟩
  · obtain rfl := h.eq_of_index_eq hmem hcolumn hindex
    exact hrightmost later hlater hlt hsame
  · exact hrightmost other (mem_without.mp hother).1

/-- Columns of which one cannot be used instead of the one that is left out. -/
theorem filter_usable_without {rules : Rules} {indices : List Nat} {f g : Nat → Column}
    (hindex : ∀ place, (f place).index = place)
    (hsame : ∀ place ∈ indices, place ≠ index → g place = f place)
    (hnone : index ∈ indices → rules.usable (g index) = false) :
    (indices.map g).filter rules.usable = without index ((indices.map f).filter rules.usable) := by
  induction indices with
  | nil => rfl
  | cons place rest ih =>
    obtain ⟨hplace, hrest⟩ := List.forall_mem_cons.mp hsame
    have hih := ih hrest fun hmem => hnone (List.mem_cons_of_mem _ hmem)
    rw [List.map_cons, List.map_cons]
    by_cases hdropped : place = index
    · subst hdropped
      rw [List.filter_cons_of_neg (by rw [hnone List.mem_cons_self]; exact Bool.false_ne_true),
        hih, List.filter_cons]
      split
      · rw [without, without, List.filter_cons_of_neg (by simp [hindex])]
      · rfl
    · rw [hplace hdropped, List.filter_cons, List.filter_cons, hih]
      split
      · rw [without, without, List.filter_cons_of_pos (by simp [hindex, hdropped])]
      · rfl

/-- The default of a column is in force: no column further right with its path has one. -/
def KeepsDefault (column : Column) (columns : List Column) : Prop :=
  column.fallback.isSome = true ∧
    ∀ later ∈ columns, column.index < later.index → later.path = column.path →
      later.fallback = none

instance (column : Column) (columns : List Column) : Decidable (column.KeepsDefault columns) :=
  inferInstanceAs (Decidable (_ ∧ _))

/-- A path takes its type from the last column that has it on its way. -/
theorem get?_types_drop (hsegments : column.segments = later.segments) (hlater : later ∈ back)
    (hlength : column.segments.length = column.types.length)
    (hlaterLength : later.segments.length = later.types.length) (path : String) :
    Entries.get? path (Entries.ofPairs ((front ++ column :: back).flatMap typePairs)) =
      Entries.get? path (Entries.ofPairs ((front ++ back).flatMap typePairs)) := by
  have hsplit : (front ++ column :: back).flatMap typePairs =
      front.flatMap typePairs ++ column.typePairs ++ back.flatMap typePairs := by
    rw [List.flatMap_append, List.flatMap_cons, List.append_assoc]
  rw [hsplit, List.flatMap_append]
  refine Entries.get?_ofPairs_drop fun hpath => ?_
  rw [names_typePairs hlength, ancestors, hsegments, ← ancestors,
    ← names_typePairs hlaterLength] at hpath
  rw [Entries.names, List.map_flatMap, List.mem_flatMap]
  exact ⟨later, hlater, hpath⟩

/-- A path takes its default from the last column with this path that has one. -/
theorem get?_fallbacks_drop {path : String}
    (h : column.path = path → column.fallback.isSome = true →
      ∃ later ∈ back, later.path = path ∧ later.fallback.isSome = true) :
    Entries.get? path (Entries.ofPairs ((front ++ column :: back).filterMap fallbackPair?)) =
      Entries.get? path (Entries.ofPairs ((front ++ back).filterMap fallbackPair?)) := by
  have hsplit : front ++ column :: back = front ++ [column] ++ back := by
    rw [List.append_assoc, List.singleton_append]
  rw [hsplit, List.filterMap_append, List.filterMap_append, List.filterMap_append]
  refine Entries.get?_ofPairs_drop fun hpath => ?_
  rw [names_fallbackPairs, List.mem_map] at hpath ⊢
  obtain ⟨same, hsame, hpath⟩ := hpath
  obtain ⟨hmem, hsome⟩ := List.mem_filter.mp hsame
  obtain rfl := List.mem_singleton.mp hmem
  obtain ⟨later, hlater, hlaterPath, hlaterSome⟩ := h hpath hsome
  exact ⟨later, List.mem_filter.mpr ⟨hlater, hlaterSome⟩, hlaterPath⟩

end Column

/-! ## The worksheet with a column blanked -/

namespace Rules.Blanks

variable {rules : Rules} {sheet other : Worksheet} {index : Nat} {schema otherSchema : Schema}

theorem exists_ofSheet (h : rules.Blanks (fun _ place => place = index) sheet other)
    (hread : rules.CanRead sheet) (hschema : Schema.ofSheet rules sheet = .ok schema) :
    ∃ otherSchema, Schema.ofSheet rules other = .ok otherSchema := by
  obtain ⟨extent, -, hextent, -⟩ := Schema.ofSheet_eq_ok hschema
  refine CompiledSheet.exists_ofSheet (h.canRead hread) (h.extent.symm.trans hextent) ?_
  rw [← h.headerKeywords_eq hextent]
  exact (Schema.header_of_ofSheet hextent hschema).2.2

/-- Both schemas come from the same header rows, and the other one lacks the blanked column. -/
theorem schemas (h : rules.Blanks (fun _ place => place = index) sheet other)
    (hschema : Schema.ofSheet rules sheet = .ok schema)
    (hother : Schema.ofSheet rules other = .ok otherSchema) :
    ∃ header rows, schema = Schema.ofColumns header rows schema.columns ∧
      otherSchema = Schema.ofColumns header rows (Column.without index schema.columns) := by
  obtain ⟨extent, header, hextent, hscan, rfl⟩ := Schema.ofSheet_eq_ofColumns hschema
  obtain ⟨otherExtent, otherHeader, hotherExtent, hotherScan, rfl⟩ :=
    Schema.ofSheet_eq_ofColumns hother
  obtain rfl := Option.some.inj (hextent.symm.trans (h.extent.trans hotherExtent))
  rw [← h.scan_eq hextent] at hotherScan
  obtain rfl := Except.ok.inj (hscan.symm.trans hotherScan)
  refine ⟨header, (rules.clip extent).rows, rfl, congrArg (Schema.ofColumns header _) ?_⟩
  refine Column.filter_usable_without (Header.index_columnAt header sheet) ?_ ?_
  · intro place _ hkept
    rw [Header.columnAt, Header.columnAt, h.column_eq hextent hkept]
  · intro hmem
    rw [Header.columnAt_of_column
      (h.column_of_blanked hextent (Header.takes_headerRows hscan) hmem rfl)]
    rfl

/-- A worksheet that compiles does so with a column blanked. -/
theorem exists_ofWorksheet (h : rules.Blanks (fun _ place => place = index) sheet other)
    (hread : rules.CanRead sheet) (hschema : Schema.ofSheet rules sheet = .ok schema)
    (hother : Schema.ofSheet rules other = .ok otherSchema) {compiled : CompiledSheet}
    (hcompiled : CompiledSheet.ofWorksheet rules sheet = .ok compiled) :
    ∃ otherCompiled, CompiledSheet.ofWorksheet rules other = .ok otherCompiled := by
  obtain ⟨extent, -, hextent, -⟩ := Schema.ofSheet_eq_ok hschema
  have hotherExtent : other.extent = some extent := h.extent.symm.trans hextent
  cases hresult : CompiledSheet.ofWorksheet rules other with
  | ok otherCompiled => exact ⟨otherCompiled, rfl⟩
  | error fault =>
    exfalso
    cases (CompiledSheet.cause_of_ofWorksheet hresult).resolve_right
        ((h.canRead hread).not_failsToRead fault) with
    | noExtent hnone => cases hnone.symm.trans hotherExtent
    | noSchema hsome hlacks =>
      exact (Schema.header_of_ofSheet hsome hother).2.2 _ hlacks
    | clash hsome hfound hdata hclash =>
      -- columns that clash without the blanked one clash with it
      obtain rfl := Option.some.inj (hotherExtent.symm.trans hsome)
      obtain rfl := Except.ok.inj (hother.symm.trans hfound)
      obtain ⟨header, rows, -, hcolumns⟩ := h.schemas hschema hother
      have hkept : ∀ column ∈ otherSchema.columns, column ∈ schema.columns := by
        rw [hcolumns]
        exact fun column hcolumn => (Column.mem_without.mp hcolumn).1
      obtain ⟨first, hfirst, second, hsecond, hpaths⟩ :=
        (Column.exists_firstClash_iff (Schema.sorted_of_ofSheet hother)).mp ⟨_, hclash⟩
      obtain ⟨column, hcolumn⟩ :=
        (Column.exists_firstClash_iff (Schema.sorted_of_ofSheet hschema)).mpr
          ⟨first, hkept first hfirst, second, hkept second hsecond, hpaths⟩
      rw [← h.headerKeywords_eq hextent] at hdata
      exact CompiledSheet.not_ok_of_cause (.clash hextent hschema hdata hcolumn) compiled
        hcompiled

end Rules.Blanks

/-! ## What both worksheets compile to -/

/-- The schema with other defaults. -/
def Schema.withFallbacks (fallbacks : Entries String) (schema : Schema) : Schema :=
  { schema with fallbacks := fallbacks }

/-- A worksheet in whose schema the names of a column come again further right, and the worksheet
with that column blanked. -/
structure Rules.Repeats (rules : Rules) (sheet other : Worksheet) (schema otherSchema : Schema)
    (column later : Column) : Prop where
  blanks : rules.Blanks (fun _ place => place = column.index) sheet other
  declared : Schema.ofSheet rules sheet = .ok schema
  otherDeclared : Schema.ofSheet rules other = .ok otherSchema
  mem : column ∈ schema.columns
  later_mem : later ∈ schema.columns
  index_lt : column.index < later.index
  segments_eq : column.segments = later.segments

namespace Rules.Repeats

variable {rules : Rules} {sheet other : Worksheet} {schema otherSchema : Schema}
  {column later : Column}

/-- Where the columns of both schemas are. -/
theorem columns_split (h : rules.Repeats sheet other schema otherSchema column later) :
    ∃ front back, schema.columns = front ++ column :: back ∧
      otherSchema.columns = front ++ back ∧
      ∀ right : Column, right ∈ back ↔ right ∈ schema.columns ∧ column.index < right.index := by
  obtain ⟨header, rows, -, hshape⟩ := h.blanks.schemas h.declared h.otherDeclared
  obtain ⟨front, back, hsplit⟩ := List.append_of_mem h.mem
  have hsorted := Schema.sorted_of_ofSheet h.declared
  have hcolumns : otherSchema.columns = Column.without column.index schema.columns :=
    congrArg Schema.columns hshape
  rw [hsplit] at hsorted hcolumns ⊢
  refine ⟨front, back, rfl, hcolumns.trans hsorted.without_eq, fun right => ⟨fun hback => ?_, ?_⟩⟩
  · exact ⟨List.mem_append_right _ (List.mem_cons_of_mem _ hback),
      List.rel_of_pairwise_cons (List.pairwise_append.mp hsorted).2.1 hback⟩
  · exact fun hright => hsorted.mem_back hright.1 hright.2

/-- The tags of the earlier column are written over. -/
theorem get?_types_eq (h : rules.Repeats sheet other schema otherSchema column later)
    (path : String) : Entries.get? path otherSchema.types = Entries.get? path schema.types := by
  obtain ⟨extent, -, hextent, -⟩ := Schema.ofSheet_eq_ok h.declared
  have hadmits := fun column hmem => (Schema.column_of_ofSheet hextent h.declared column hmem).2.2.2
  obtain ⟨front, back, hsplit, hotherSplit, hback⟩ := h.columns_split
  rw [(Schema.maps_of_ofSheet h.declared).1, (Schema.maps_of_ofSheet h.otherDeclared).1, hsplit,
    hotherSplit]
  exact (Column.get?_types_drop h.segments_eq ((hback later).mpr ⟨h.later_mem, h.index_lt⟩)
    (hadmits column h.mem).1 (hadmits later h.later_mem).1 path).symm

/-- Both headers make the same paths lists. -/
theorem isList_eq (h : rules.Repeats sheet other schema otherSchema column later) (path : String) :
    (Layout.mk otherSchema rules.settings).isList path =
      (Layout.mk schema rules.settings).isList path :=
  Layout.isList_of_types rules.settings (h.get?_types_eq path)

/-- The default of the earlier column is written over, if another column further right has one. -/
theorem get?_fallbacks_eq (h : rules.Repeats sheet other schema otherSchema column later)
    {path : String} (hpath : path = column.path → ¬ column.KeepsDefault schema.columns) :
    Entries.get? path otherSchema.fallbacks = Entries.get? path schema.fallbacks := by
  obtain ⟨front, back, hsplit, hotherSplit, hback⟩ := h.columns_split
  rw [(Schema.maps_of_ofSheet h.declared).2, (Schema.maps_of_ofSheet h.otherDeclared).2, hsplit,
    hotherSplit]
  refine (Column.get?_fallbacks_drop fun hown hsome => ?_).symm
  by_contra hnone
  refine hpath hown.symm ⟨hsome, fun right hright hlt hsame => ?_⟩
  rw [← Option.not_isSome_iff_eq_none]
  exact fun hrightSome =>
    hnone ⟨right, (hback right).mpr ⟨hright, hlt⟩, hsame.trans hown, hrightSome⟩

/-- The default of the earlier column is in force if no other column further right has one. -/
theorem get?_fallbacks_of_keepsDefault
    (h : rules.Repeats sheet other schema otherSchema column later)
    (hkeeps : column.KeepsDefault schema.columns) :
    Entries.get? column.path schema.fallbacks = column.fallback := by
  obtain ⟨text, htext⟩ := Option.isSome_iff_exists.mp hkeeps.1
  obtain ⟨front, back, hsplit, -, hback⟩ := h.columns_split
  rw [(Schema.maps_of_ofSheet h.declared).2, hsplit, htext]
  exact Schema.get?_fallbacks htext fun right hright =>
    hkeeps.2 right ((hback right).mp hright).1 ((hback right).mp hright).2

/-- No path gets lost with the earlier column. -/
theorem mem_ofColumns_iff (h : rules.Repeats sheet other schema otherSchema column later)
    (names : List String) :
    names ∈ Outline.ofColumns schema.columns ↔ names ∈ Outline.ofColumns otherSchema.columns := by
  obtain ⟨front, back, hsplit, hotherSplit, hback⟩ := h.columns_split
  have hown : column.segments ∈ Outline.ofColumns back := by
    rw [h.segments_eq]
    exact List.mem_map_of_mem ((hback later).mpr ⟨h.later_mem, h.index_lt⟩)
  rw [hsplit, hotherSplit, Outline.ofColumns, Outline.ofColumns, List.map_append, List.map_append,
    List.map_cons, List.mem_append, List.mem_append, List.mem_cons]
  refine or_congr_right ⟨?_, Or.inr⟩
  rintro (rfl | hmem)
  · exact hown
  · exact hmem

theorem dataRows_eq (h : rules.Repeats sheet other schema otherSchema column later) :
    CompiledSheet.dataRows otherSchema = CompiledSheet.dataRows schema := by
  obtain ⟨header, rows, hshape, hotherShape⟩ := h.blanks.schemas h.declared h.otherDeclared
  rw [hotherShape, congrArg CompiledSheet.dataRows hshape]
  rfl

/-- The cells of the earlier column are written over. -/
theorem rearranged_ofRow (h : rules.Repeats sheet other schema otherSchema column later) :
    ∀ row ∈ CompiledSheet.dataRows schema, ∀ raw otherRaw,
      Record.ofRow sheet schema.columns row = .ok raw →
      Record.ofRow other otherSchema.columns row = .ok otherRaw → raw.Rearranged otherRaw := by
  intro row hrow raw otherRaw
  obtain ⟨extent, -, hextent, -⟩ := Schema.ofSheet_eq_ok h.declared
  have hbelow := CompiledSheet.notMem_headerRows_of_mem_dataRows hextent h.declared row hrow
  obtain ⟨header, rows, -, hshape⟩ := h.blanks.schemas h.declared h.otherDeclared
  have hcolumns : otherSchema.columns = Column.without column.index schema.columns :=
    congrArg Schema.columns hshape
  refine Record.rearranged_ofRow h.mem_ofColumns_iff fun last hlast => ⟨last, ?_, rfl, ?_⟩
  · rw [hcolumns]
    exact (Schema.sorted_of_ofSheet h.declared).lastIn_without h.later_mem h.index_lt h.segments_eq.symm
      h.mem hlast
  · rw [h.blanks.kept extent hextent row last.index fun hdescribes => hbelow hdescribes.1.1]

end Rules.Repeats

namespace CompiledSheet

variable {rules : Rules} {sheet other : Worksheet} {schema otherSchema : Schema}
  {column later : Column} {compiled otherCompiled : CompiledSheet}

/-- With the defaults of the first header the rows of the other worksheet make the same records. -/
theorem exists_records_of_fallbacks
    (h : rules.Repeats sheet other schema otherSchema column later)
    (hcompiled : ofWorksheet rules sheet = .ok compiled)
    (hotherCompiled : ofWorksheet rules other = .ok otherCompiled) :
    ∃ records, (dataRows otherSchema).foldlM
        (addRow ⟨otherSchema.withFallbacks schema.fallbacks, rules.settings⟩ other) [] =
          .ok records ∧
      List.Forall₂ Record.Rearranged compiled.records records.reverse := by
  have hd := Layout.declares_of_lawful (Schema.lawful_ofSheet h.declared) rules.settings
  have hotherD := Layout.declares_of_lawful (Schema.lawful_ofSheet h.otherDeclared) rules.settings
  have hinherits : (Layout.mk (otherSchema.withFallbacks schema.fallbacks)
      rules.settings).Declares "" (Outline.ofColumns otherSchema.columns) :=
    ⟨hotherD.typed, hd.filled⟩
  have hagrees : (Layout.mk (otherSchema.withFallbacks schema.fallbacks)
      rules.settings).Agrees ⟨schema, rules.settings⟩ :=
    ⟨h.isList_eq, fun _ => rfl, fun _ => rfl⟩
  obtain ⟨raws, hraws, hrecords⟩ := ofWorksheet_eq_ok h.declared hcompiled
  obtain ⟨otherRaws, hotherRaws, -⟩ := ofWorksheet_eq_ok h.otherDeclared hotherCompiled
  refine ⟨otherRaws.foldl (takeIn ⟨otherSchema.withFallbacks schema.fallbacks, rules.settings⟩) [],
    (foldlM_addRow hinherits (by simp [Conforms])).trans (congrArg _ hotherRaws), ?_⟩
  rw [h.dataRows_eq] at hotherRaws
  rw [hrecords, List.forall₂_reverse_iff]
  exact forall₂_foldl_of_rows h.declared h.mem_ofColumns_iff hagrees h.rearranged_ofRow
    hraws hotherRaws

/-- Unless the default of the earlier column is in force, the other worksheet compiles to the same
records. -/
theorem forall₂_records_of_repeats
    (h : rules.Repeats sheet other schema otherSchema column later)
    (hcompiled : ofWorksheet rules sheet = .ok compiled)
    (hotherCompiled : ofWorksheet rules other = .ok otherCompiled)
    (hdropped : ¬ column.KeepsDefault schema.columns) :
    List.Forall₂ Record.Rearranged compiled.records otherCompiled.records := by
  have hagrees : (Layout.mk otherSchema rules.settings).Agrees ⟨schema, rules.settings⟩ :=
    ⟨h.isList_eq, fun _ => h.get?_fallbacks_eq fun _ => hdropped, fun _ => rfl⟩
  exact forall₂_records_of_rows h.declared h.otherDeclared h.mem_ofColumns_iff hagrees h.dataRows_eq
    h.rearranged_ofRow hcompiled hotherCompiled

/-- Of two columns with the same names the later one wins.  Take a worksheet that can be read and
compiles, and blank the earlier column in its header.  The other worksheet compiles as well.  All
types are the same, and so are all defaults, but for the default of the earlier column where it is in
force.  With the defaults of the first header the row loop makes the same records of the other
worksheet, equal one by one up to the order of fields; and so does the other header itself unless the
default of the earlier column is in force. -/
theorem later_column_wins (hread : rules.CanRead sheet)
    (hschema : Schema.ofSheet rules sheet = .ok schema)
    {compiled : CompiledSheet} (hcompiled : ofWorksheet rules sheet = .ok compiled)
    (hcolumn : column ∈ schema.columns) (hlater : later ∈ schema.columns)
    (hlt : column.index < later.index) (hsame : column.segments = later.segments)
    (hblanks : rules.Blanks (fun _ place => place = column.index) sheet other) :
    ∃ otherSchema otherCompiled, Schema.ofSheet rules other = .ok otherSchema ∧
      ofWorksheet rules other = .ok otherCompiled ∧
      (∀ path, Entries.get? path otherSchema.types = Entries.get? path schema.types) ∧
      (∀ path, (path = column.path → ¬ column.KeepsDefault schema.columns) →
        Entries.get? path otherSchema.fallbacks = Entries.get? path schema.fallbacks) ∧
      (column.KeepsDefault schema.columns →
        Entries.get? column.path schema.fallbacks = column.fallback) ∧
      (∃ records, (dataRows otherSchema).foldlM
          (addRow ⟨otherSchema.withFallbacks schema.fallbacks, rules.settings⟩ other) [] =
            .ok records ∧
        List.Forall₂ Record.Rearranged compiled.records records.reverse) ∧
      (¬ column.KeepsDefault schema.columns →
        List.Forall₂ Record.Rearranged compiled.records otherCompiled.records) := by
  obtain ⟨otherSchema, hother⟩ := hblanks.exists_ofSheet hread hschema
  obtain ⟨otherCompiled, hotherCompiled⟩ :=
    hblanks.exists_ofWorksheet hread hschema hother hcompiled
  have h : rules.Repeats sheet other schema otherSchema column later :=
    ⟨hblanks, hschema, hother, hcolumn, hlater, hlt, hsame⟩
  exact ⟨otherSchema, otherCompiled, hother, hotherCompiled, h.get?_types_eq,
    fun _ => h.get?_fallbacks_eq, h.get?_fallbacks_of_keepsDefault,
    exists_records_of_fallbacks h hcompiled hotherCompiled,
    forall₂_records_of_repeats h hcompiled hotherCompiled⟩

/-- Tags in two columns, of which the later one has a default of its own. -/
def bags : Grid where
  name := "Bags"
  rows := [
    ["#var", "Tags", "Size", "Tags"],
    ["#type", "list", "int", "string"],
    ["#default", "new", "", "plain"],
    ["", "red", "7", ""]]

/-- The earlier column of the tags. -/
def earlierTags : Column where
  index := 2
  values := [("var", ["Tags"]), ("type", ["list"]), ("default", ["new"])]
  fallback := some "new"

/-- The later column of the tags. -/
def laterTags : Column where
  index := 4
  values := [("var", ["Tags"]), ("type", ["string"]), ("default", ["plain"])]
  fallback := some "plain"

/-- With the earlier column blanked the bags compile to the same records, in which the tags come
last. -/
theorem bags_later_column_wins : ∃ rules schema compiled other,
    Rules.ofSettings {} = .ok rules ∧ rules.CanRead bags.worksheet ∧
    Schema.ofSheet rules bags.worksheet = .ok schema ∧
    earlierTags ∈ schema.columns ∧ laterTags ∈ schema.columns ∧
    earlierTags.index < laterTags.index ∧ earlierTags.segments = laterTags.segments ∧
    ¬ earlierTags.KeepsDefault schema.columns ∧
    rules.Blanks (fun _ place => place = earlierTags.index) bags.worksheet
      (rules.blankColumns (fun _ place => place = earlierTags.index) bags.worksheet) ∧
    ofWorksheet rules bags.worksheet = .ok compiled ∧
    compiled.records = [[("Tags", .scalar "plain"), ("Size", .scalar "7")]] ∧
    ofWorksheet rules (rules.blankColumns (fun _ place => place = earlierTags.index)
      bags.worksheet) = .ok other ∧
    List.Forall₂ Record.Rearranged compiled.records other.records := by
  have hsome : ((Rules.ofSettings {}).toOption.bind fun rules =>
      (Schema.ofSheet rules bags.worksheet).toOption.bind fun schema =>
        (ofWorksheet rules bags.worksheet).toOption.map fun compiled =>
          decide (earlierTags ∈ schema.columns ∧ laterTags ∈ schema.columns ∧
            ¬ earlierTags.KeepsDefault schema.columns ∧
            compiled.records = [[("Tags", .scalar "plain"), ("Size", .scalar "7")]])) =
      some true := by
    decide +kernel
  obtain ⟨rules, hrules, hsome⟩ := Option.bind_eq_some_iff.mp hsome
  obtain ⟨schema, hschema, hsome⟩ := Option.bind_eq_some_iff.mp hsome
  obtain ⟨compiled, hcompiled, hfacts⟩ := Option.map_eq_some_iff.mp hsome
  obtain ⟨hearlier, hlater, hdropped, hrecords⟩ := of_decide_eq_true hfacts
  have hrules := eq_ok_of_toOption hrules
  have hschema := eq_ok_of_toOption hschema
  have hcompiled := eq_ok_of_toOption hcompiled
  have hread := canRead_grid rules (show bags.merged = [] from rfl)
  have hblanks := rules.blanks_blankColumns (fun _ place => place = earlierTags.index)
    bags.worksheet
  have hlt : earlierTags.index < laterTags.index := by decide
  have hsame : earlierTags.segments = laterTags.segments := by decide
  obtain ⟨otherSchema, other, -, hother, -, -, -, -, hwins⟩ :=
    later_column_wins hread hschema hcompiled hearlier hlater hlt hsame hblanks
  exact ⟨rules, schema, compiled, other, hrules, hread, hschema, hearlier, hlater, hlt, hsame,
    hdropped, hblanks, hcompiled, hrecords, hother, hwins hdropped⟩

/-- Names in two columns, of which only the earlier one has a default. -/
def visitors : Grid where
  name := "Visitors"
  rows := [
    ["#var", "Name", "Name", "Age"],
    ["#type", "string", "string", "int"],
    ["#default", "x"],
    ["", "", "", "7"]]

/-- The earlier column of the names. -/
def earlierName : Column where
  index := 2
  values := [("var", ["Name"]), ("type", ["string"]), ("default", ["x"])]
  fallback := some "x"

/-- The later column of the names. -/
def laterName : Column where
  index := 3
  values := [("var", ["Name"]), ("type", ["string"])]

/-- A later column does not always win: one without a default leaves that of the earlier column in
force. -/
theorem earlier_default_survives : ∃ rules schema compiled other,
    Rules.ofSettings {} = .ok rules ∧ rules.CanRead visitors.worksheet ∧
    Schema.ofSheet rules visitors.worksheet = .ok schema ∧
    earlierName ∈ schema.columns ∧ laterName ∈ schema.columns ∧
    earlierName.index < laterName.index ∧ earlierName.segments = laterName.segments ∧
    rules.Blanks (fun _ place => place = earlierName.index) visitors.worksheet
      (rules.blankColumns (fun _ place => place = earlierName.index) visitors.worksheet) ∧
    ofWorksheet rules visitors.worksheet = .ok compiled ∧
    ofWorksheet rules (rules.blankColumns (fun _ place => place = earlierName.index)
      visitors.worksheet) = .ok other ∧
    compiled.records = [[("Name", .scalar "x"), ("Age", .scalar "7")]] ∧
    other.records = [[("Name", .null), ("Age", .scalar "7")]] ∧
    ¬ List.Forall₂ Record.Rearranged compiled.records other.records := by
  have hsome : ((Rules.ofSettings {}).toOption.bind fun rules =>
      (Schema.ofSheet rules visitors.worksheet).toOption.bind fun schema =>
        (ofWorksheet rules visitors.worksheet).toOption.bind fun compiled =>
          (ofWorksheet rules (rules.blankColumns (fun _ place => place = earlierName.index)
            visitors.worksheet)).toOption.map fun other =>
              decide (earlierName ∈ schema.columns ∧ laterName ∈ schema.columns ∧
                compiled.records = [[("Name", .scalar "x"), ("Age", .scalar "7")]] ∧
                other.records = [[("Name", .null), ("Age", .scalar "7")]])) =
      some true := by
    decide +kernel
  obtain ⟨rules, hrules, hsome⟩ := Option.bind_eq_some_iff.mp hsome
  obtain ⟨schema, hschema, hsome⟩ := Option.bind_eq_some_iff.mp hsome
  obtain ⟨compiled, hcompiled, hsome⟩ := Option.bind_eq_some_iff.mp hsome
  obtain ⟨other, hother, hfacts⟩ := Option.map_eq_some_iff.mp hsome
  obtain ⟨hearlier, hlater, hrecords, hotherRecords⟩ := of_decide_eq_true hfacts
  refine ⟨rules, schema, compiled, other, eq_ok_of_toOption hrules,
    canRead_grid rules (show visitors.merged = [] from rfl), eq_ok_of_toOption hschema, hearlier,
    hlater, by decide, by decide, rules.blanks_blankColumns _ _, eq_ok_of_toOption hcompiled,
    eq_ok_of_toOption hother, hrecords, hotherRecords, ?_⟩
  rw [hrecords, hotherRecords]
  intro hsame
  obtain ⟨hrecord, -⟩ := List.forall₂_cons.mp hsame
  have hname : Value.Rearranged (.scalar "x") .null :=
    Value.Rearranged.of_get? hrecord (show Entries.get? "Name" _ = _ from if_pos rfl) (if_pos rfl)
  cases hname

end CompiledSheet

end SheetCompiler
