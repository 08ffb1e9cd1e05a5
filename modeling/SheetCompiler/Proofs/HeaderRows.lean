import SheetCompiler.Proofs.MovedColumns

/-!
# What the header rows say

A header is read cell by cell, in steps that may fail.  Where none of them does, what was read is
told by the texts in the cells (`Worksheet.textAt?`).  Every header row has a keyword.  A keyword
that columns collect (`Rules.keyAt?`) adds the row to the rows under it; any other keyword is a note
(`Rules.noteAt?`), whose value is the first text that some row under it has.

`Header.Takes` says what a header has taken in from some rows.  One row is a step of it
(`Header.takes_of_addRow`), steps can be put together (`Header.Takes.trans`), and a scan takes in
the rows up to the first one that is not marked (`Header.takes_of_scan`).  What a column has under a
keyword is then the texts of its cells in the rows under that keyword (`Header.get_column`).
-/

namespace SheetCompiler

namespace Worksheet

variable {sheet : Worksheet} {row column : Nat}

/-- The text in a cell without white space around it.  A blank cell has none, nor has one that
cannot be read. -/
def textAt? (sheet : Worksheet) (row column : Nat) : Option String :=
  (sheet.cellText row column).toOption.bind fun cell => cell.bind Text.filled?

theorem textAt?_of_readFilled {found : Option String}
    (h : sheet.readFilled row column = .ok found) : sheet.textAt? row column = found := by
  obtain ⟨cell, hcell, rfl⟩ := cellText_of_readFilled h
  rw [textAt?, hcell]
  rfl

/-- The first filled cell is the first one with a text. -/
theorem firstFilled_eq_ok {count : Nat} {found : Option String}
    (h : sheet.firstFilled row count column = .ok found) :
    found = ((List.range' column count).filterMap (sheet.textAt? row)).head? := by
  induction count generalizing column with
  | zero => exact (Except.ok.inj h).symm
  | succ count ih =>
    rw [firstFilled] at h
    obtain ⟨cell, hread, h⟩ := bind_eq_ok.mp h
    rw [List.range'_succ]
    cases cell with
    | some text =>
      rw [List.filterMap_cons_some (textAt?_of_readFilled hread), List.head?_cons]
      exact (Except.ok.inj h).symm
    | none =>
      rw [List.filterMap_cons_none (textAt?_of_readFilled hread)]
      exact ih h

end Worksheet

namespace Rules

variable {rules : Rules} {sheet : Worksheet} {row : Nat}

/-- The folded keyword of a row, if it is one that columns collect. -/
def keyAt? (rules : Rules) (sheet : Worksheet) (row : Nat) : Option String :=
  (rules.keywordAt? sheet row).bind fun keyword =>
    if keyword.isEmpty then none else rules.recognize? keyword

/-- The keyword of a row as it is written, if it is one that columns do not collect. -/
def noteAt? (rules : Rules) (sheet : Worksheet) (row : Nat) : Option String :=
  (rules.keywordAt? sheet row).bind fun keyword =>
    if keyword.isEmpty || (rules.recognize? keyword).isSome then none else some keyword

/-- The texts of a column in the rows under a folded keyword, from top to bottom. -/
def valuesUnder (rules : Rules) (sheet : Worksheet) (rows : List Nat) (key : String)
    (column : Nat) : List String :=
  (rows.filter fun row => rules.keyAt? sheet row == some key).filterMap fun row =>
    sheet.textAt? row column

/-- The texts in the rows of a note, row by row and from left to right, as far as columns are looked
at. -/
def textsOf (rules : Rules) (sheet : Worksheet) (columns : Nat) (rows : List Nat)
    (note : String) : List String :=
  (rows.filter fun row => rules.noteAt? sheet row == some note).flatMap fun row =>
    (List.range' (Worksheet.markerColumn + 1) (columns - Worksheet.markerColumn)).filterMap
      (sheet.textAt? row)

theorem keywordAt?_of_noteAt? {note : String} (h : rules.noteAt? sheet row = some note) :
    rules.keywordAt? sheet row = some note := by
  obtain ⟨keyword, hkeyword, hnote⟩ := Option.bind_eq_some_iff.mp h
  split at hnote
  · cases hnote
  · rw [hkeyword, hnote]

/-- A row without a note of that name has nothing to add to it. -/
theorem textsOf_of_noteAt?_ne {note : String} (h : rules.noteAt? sheet row ≠ some note)
    (columns : Nat) : rules.textsOf sheet columns [row] note = [] := by
  rw [textsOf, List.filter_cons_of_neg (by rwa [beq_iff_eq]), List.filter_nil, List.flatMap_nil]

theorem textsOf_of_noteAt? {note : String} (h : rules.noteAt? sheet row = some note)
    (columns : Nat) : rules.textsOf sheet columns [row] note =
      (List.range' (Worksheet.markerColumn + 1) (columns - Worksheet.markerColumn)).filterMap
        (sheet.textAt? row) := by
  rw [textsOf, List.filter_cons_of_pos (by rwa [beq_iff_eq]), List.filter_nil,
    List.flatMap_singleton]

theorem recognizedRow_eq {keyword : String} (h : rules.keywordAt? sheet row = some keyword) :
    rules.recognizedRow row keyword =
      ((rules.keyAt? sheet row).map fun key => (row, key)).toList := by
  rw [recognizedRow, keyAt?, h, Option.bind_some]
  split
  · rfl
  · rfl

theorem textsOf_append (columns : Nat) (front back : List Nat) (note : String) :
    rules.textsOf sheet columns (front ++ back) note =
      rules.textsOf sheet columns front note ++ rules.textsOf sheet columns back note := by
  rw [textsOf, List.filter_append, List.flatMap_append]
  rfl

end Rules

namespace Header

variable {rules : Rules} {sheet : Worksheet} {columns row : Nat} {header next last : Header}

/-- What a header has taken in from some rows. -/
structure Takes (rules : Rules) (sheet : Worksheet) (columns : Nat) (rows : List Nat)
    (header last : Header) : Prop where
  height : last.rows = header.rows + rows.length
  keywordRows : last.keywordRows = header.keywordRows ++
    rows.filterMap fun row => (rules.keyAt? sheet row).map fun key => (row, key)
  metadata : ∀ note, Entries.get? note last.metadata =
    (Entries.get? note header.metadata).or (rules.textsOf sheet columns rows note).head?

theorem Takes.refl (header : Header) : Takes rules sheet columns [] header header := by
  refine ⟨rfl, (List.append_nil _).symm, fun note => ?_⟩
  rw [Rules.textsOf]
  simp

theorem Takes.trans {front back : List Nat} (h : Takes rules sheet columns front header next)
    (hback : Takes rules sheet columns back next last) :
    Takes rules sheet columns (front ++ back) header last := by
  refine ⟨?_, ?_, fun note => ?_⟩
  · rw [hback.height, h.height, List.length_append, Nat.add_assoc]
  · rw [hback.keywordRows, h.keywordRows, List.filterMap_append, List.append_assoc]
  · rw [hback.metadata, h.metadata, Rules.textsOf_append, List.head?_append, Option.or_assoc]

theorem rows_of_addRow {keyword : String}
    (h : addRow rules sheet columns row keyword header = .ok next) : next.rows = row := by
  rw [addRow] at h
  by_cases hempty : keyword.isEmpty = true
  · simp only [hempty, if_true] at h
    rw [← Except.ok.inj h]
  · simp only [hempty, Bool.false_eq_true, if_false] at h
    split at h
    · rw [← Except.ok.inj h]
    · split at h
      · rw [← Except.ok.inj h]
      · obtain ⟨found, -, h⟩ := bind_eq_ok.mp h
        cases found with
        | none => rw [← Except.ok.inj h]
        | some value => rw [← Except.ok.inj h]

/-- Without a note in it a row leaves the metadata alone. -/
theorem metadata_of_noteAt?_none {keyword : String}
    (hkeyword : rules.keywordAt? sheet row = some keyword)
    (hnote : rules.noteAt? sheet row = none)
    (h : addRow rules sheet columns row keyword header = .ok next) :
    next.metadata = header.metadata := by
  rw [Rules.noteAt?, hkeyword, Option.bind_some] at hnote
  rw [addRow] at h
  by_cases hempty : keyword.isEmpty = true
  · simp only [hempty, if_true] at h
    rw [← Except.ok.inj h]
  · simp only [hempty, Bool.false_eq_true, if_false] at h
    cases hrecognize : rules.recognize? keyword with
    | some folded =>
      simp only [hrecognize] at h
      rw [← Except.ok.inj h]
    | none => simp [hempty, hrecognize] at hnote

/-- The first text of a row is the value of its note, unless the note has one already. -/
theorem metadata_of_noteAt? {note : String} (hnote : rules.noteAt? sheet row = some note)
    (h : addRow rules sheet columns row note header = .ok next) :
    next.metadata = header.metadata ∧
        Entries.get? note header.metadata =
          (Entries.get? note header.metadata).or (rules.textsOf sheet columns [row] note).head? ∨
      ∃ value, Entries.get? note header.metadata = none ∧
        (rules.textsOf sheet columns [row] note).head? = some value ∧
        next.metadata = Entries.put note value header.metadata := by
  rw [Rules.textsOf_of_noteAt? hnote]
  rw [Rules.noteAt?, Rules.keywordAt?_of_noteAt? hnote, Option.bind_some] at hnote
  split at hnote
  · cases hnote
  · rename_i hunrecognized
    rw [Bool.or_eq_true, not_or, Option.not_isSome_iff_eq_none] at hunrecognized
    rw [addRow] at h
    simp only [hunrecognized.1, hunrecognized.2, Bool.false_eq_true, if_false] at h
    split at h
    · rename_i hknown
      obtain ⟨value, hvalue⟩ := Option.isSome_iff_exists.mp hknown
      exact Or.inl ⟨by rw [← Except.ok.inj h], by rw [hvalue, Option.some_or]⟩
    · rename_i hunknown
      rw [Option.not_isSome_iff_eq_none] at hunknown
      obtain ⟨found, hfound, h⟩ := bind_eq_ok.mp h
      rw [hunknown, Option.none_or, ← Worksheet.firstFilled_eq_ok hfound]
      cases found with
      | none => exact Or.inl ⟨by rw [← Except.ok.inj h], rfl⟩
      | some value => exact Or.inr ⟨value, rfl, rfl, by rw [← Except.ok.inj h]⟩

theorem metadata_of_addRow {keyword : String} (hkeyword : rules.keywordAt? sheet row = some keyword)
    (h : addRow rules sheet columns row keyword header = .ok next) (note : String) :
    Entries.get? note next.metadata =
      (Entries.get? note header.metadata).or (rules.textsOf sheet columns [row] note).head? := by
  cases hnote : rules.noteAt? sheet row with
  | none =>
    have hother : rules.noteAt? sheet row ≠ some note := by rw [hnote]; exact nofun
    rw [metadata_of_noteAt?_none hkeyword hnote h, Rules.textsOf_of_noteAt?_ne hother,
      List.head?_nil, Option.or_none]
  | some own =>
    obtain rfl := Option.some.inj (hkeyword.symm.trans (Rules.keywordAt?_of_noteAt? hnote))
    have hstep := metadata_of_noteAt? hnote h
    by_cases hsame : note = keyword
    · subst hsame
      rcases hstep with ⟨hkept, hvalue⟩ | ⟨value, hnone, hvalue, hput⟩
      · rw [hkept, ← hvalue]
      · rw [hput, hnone, hvalue, Entries.get?_put_self, Option.none_or]
    · have hother : rules.noteAt? sheet row ≠ some note := by
        rw [hnote]
        exact fun hnote => hsame (Option.some.inj hnote).symm
      rw [Rules.textsOf_of_noteAt?_ne hother, List.head?_nil, Option.or_none]
      rcases hstep with ⟨hkept, -⟩ | ⟨value, -, -, hput⟩
      · rw [hkept]
      · rw [hput, Entries.get?_put_of_ne hsame]

/-- A header row is taken in. -/
theorem takes_of_addRow {keyword : String} (hkeyword : rules.keywordAt? sheet row = some keyword)
    (hrow : header.rows + 1 = row)
    (h : addRow rules sheet columns row keyword header = .ok next) :
    Takes rules sheet columns [row] header next := by
  refine ⟨(rows_of_addRow h).trans hrow.symm, ?_, metadata_of_addRow hkeyword h⟩
  rw [keywordRows_of_addRow h, Rules.recognizedRow_eq hkeyword]
  cases hkey : rules.keyAt? sheet row with
  | none => rw [List.filterMap_cons_none (by rw [hkey]; rfl)]; rfl
  | some key => rw [List.filterMap_cons_some (by rw [hkey]; rfl)]; rfl

/-- A scan takes in the rows up to the first one that is not marked. -/
theorem takes_of_scan : ∀ {count row : Nat} {header last : Header}, header.rows + 1 = row →
    scan rules sheet columns count row header = .ok last →
    ∃ height ≤ count, Takes rules sheet columns (List.range' row height) header last ∧
      (∀ index ∈ List.range' row height, (rules.keywordAt? sheet index).isSome) ∧
      (height < count → rules.keywordAt? sheet (row + height) = none)
  | 0, row, header, last, hrow, h => by
    rw [← Except.ok.inj h]
    exact ⟨0, Nat.le_refl 0, .refl header, by simp, fun hlt => absurd hlt (Nat.lt_irrefl 0)⟩
  | count + 1, row, header, last, hrow, h => by
    rw [scan_succ] at h
    obtain ⟨cell, hread, h⟩ := bind_eq_ok.mp h
    have hkeywordAt := Rules.keywordAt?_eq rules hread
    cases hkeyword : cell.bind (keyword? rules.settings.marker) with
    | none =>
      simp only [hkeyword] at h
      rw [← Except.ok.inj h]
      exact ⟨0, Nat.zero_le _, .refl header, by simp, fun _ => hkeywordAt.trans hkeyword⟩
    | some keyword =>
      simp only [hkeyword] at h
      obtain ⟨next, hadd, h⟩ := bind_eq_ok.mp h
      have hmarked := hkeywordAt.trans hkeyword
      have hstep := takes_of_addRow hmarked hrow hadd
      obtain ⟨height, hle, htakes, hall, hstops⟩ :=
        takes_of_scan (by rw [rows_of_addRow hadd]) h
      refine ⟨height + 1, Nat.succ_le_succ hle, ?_, ?_, fun hlt => ?_⟩
      · rw [List.range'_succ]
        exact hstep.trans htakes
      · rw [List.range'_succ, List.forall_mem_cons]
        exact ⟨by rw [hmarked]; rfl, hall⟩
      · rw [Nat.add_comm height, ← Nat.add_assoc]
        exact hstops (by omega)

/-! ## The columns -/

/-- What header rows with a keyword push onto a column, row by row. -/
theorem get_of_foldlM {index : Nat} {entries : List (Nat × String)} {first last : Column}
    (h : entries.foldlM (fun (column : Column) entry => do
      match ← sheet.readFilled entry.1 index with
      | some text => return column.push entry.2 text
      | none => return column) first = Except.ok last) (key : String) :
    last.get key = first.get key ++ (entries.filter fun entry => entry.2 == key).filterMap
      fun entry => sheet.textAt? entry.1 index := by
  induction entries generalizing first with
  | nil => rw [← Except.ok.inj h]; simp
  | cons entry rest ih =>
    rw [List.foldlM_cons] at h
    obtain ⟨next, hstep, h⟩ := bind_eq_ok.mp h
    obtain ⟨cell, hread, hstep⟩ := bind_eq_ok.mp hstep
    have htext := Worksheet.textAt?_of_readFilled hread
    rw [ih h]
    cases cell with
    | none =>
      rw [← Except.ok.inj hstep]
      by_cases hkey : entry.2 = key
      · simp [hkey, htext]
      · simp [hkey]
    | some text =>
      rw [← Except.ok.inj hstep]
      by_cases hkey : entry.2 = key
      · simp [← hkey, htext, Column.get_push_self]
      · simp [hkey, Column.get_push_of_ne (Ne.symm hkey)]

theorem filterMap_keyedRows (rows : List Nat) (key : String) (index : Nat) :
    ((rows.filterMap fun row => (rules.keyAt? sheet row).map fun key => (row, key)).filter
      fun entry => entry.2 == key).filterMap (fun entry => sheet.textAt? entry.1 index) =
        rules.valuesUnder sheet rows key index := by
  rw [Rules.valuesUnder, List.filter_filterMap, List.filterMap_filterMap, List.filterMap_filter]
  congr 1
  funext row
  cases rules.keyAt? sheet row with
  | none => rfl
  | some own => by_cases hsame : own = key <;> simp [Option.filter, hsame]

/-- What a column has under a keyword is in its cells in the rows under that keyword. -/
theorem get_column {index : Nat} {rows : List Nat} {column : Column}
    (hrows : header.keywordRows =
      rows.filterMap fun row => (rules.keyAt? sheet row).map fun key => (row, key))
    (h : header.column sheet index = .ok column) (key : String) :
    column.get key = rules.valuesUnder sheet rows key index := by
  rw [get_of_foldlM h, hrows, filterMap_keyedRows]
  exact List.nil_append _

/-- The default of a column is the lowest one. -/
theorem fallback_column {index : Nat} {column : Column}
    (h : header.column sheet index = .ok column) :
    column.fallback = (column.get Keyword.fallback).getLast? := by
  refine header.column_preserves
    (fun column => column.fallback = (column.get Keyword.fallback).getLast?) rfl ?_ h
  intro column keyword text hcolumn _
  by_cases hkey : keyword = Keyword.fallback
  · rw [hkey, Column.get_push_self, List.getLast?_concat]
    rfl
  · rw [Column.get_push_of_ne (Ne.symm hkey), ← hcolumn, Column.push, if_neg hkey]

end Header

/-! ## The columns that can be used -/

namespace Rules

variable {rules : Rules}

/-- The rules of settings that pass their check. -/
theorem ofSettings_eq_ok {settings : Settings} :
    ofSettings settings = .ok rules ↔ settings.check = .ok () ∧
      ∃ identifier, settings.identifier? = some identifier ∧
        rules = ⟨settings, identifier.matchesIn⟩ := by
  rw [ofSettings]
  cases hcheck : settings.check with
  | error fault =>
    constructor
    · intro h
      cases h
    · intro h
      cases h.1
  | ok _ =>
    cases hidentifier : settings.identifier? with
    | none =>
      constructor
      · intro h
        cases h
      · rintro ⟨-, identifier, hnone, -⟩
        cases hnone
    | some identifier =>
      constructor
      · intro h
        exact ⟨rfl, identifier, rfl, (Except.ok.inj h).symm⟩
      · rintro ⟨-, same, hsame, rfl⟩
        rw [Option.some.inj hsame]
        rfl

theorem settings_of_ofSettings {settings : Settings} (h : ofSettings settings = .ok rules) :
    rules.settings = settings := by
  obtain ⟨-, identifier, -, rfl⟩ := ofSettings_eq_ok.mp h
  rfl

theorem recognize?_eq_some {keyword key : String} : rules.recognize? keyword = some key ↔
    rules.settings.fold keyword = key ∧ key ∈ rules.keywords := by
  rw [recognize?]
  constructor
  · intro h
    split at h
    · rename_i hknown
      rw [← Option.some.inj h]
      exact ⟨rfl, List.contains_iff_mem.mp hknown⟩
    · cases h
  · rintro ⟨rfl, hknown⟩
    exact if_pos (List.contains_iff_mem.mpr hknown)

/-- The keywords that are recognized. -/
theorem isSome_recognize? {keyword : String} :
    (rules.recognize? keyword).isSome = true ↔ rules.settings.fold keyword ∈ rules.keywords := by
  rw [Option.isSome_iff_exists]
  constructor
  · rintro ⟨key, hkey⟩
    obtain ⟨rfl, hknown⟩ := recognize?_eq_some.mp hkey
    exact hknown
  · exact fun hknown => ⟨_, recognize?_eq_some.mpr ⟨rfl, hknown⟩⟩

/-- A column with these names and type tags can be used: there are as many of both, at least one,
and in strict mode all of them pass their checks. -/
def Admits (rules : Rules) (names tags : List String) : Prop :=
  names.length = tags.length ∧ 1 ≤ names.length ∧
    (rules.settings.strict = true →
      (∀ name ∈ names, rules.isIdentifier name = true) ∧
        ∀ tag ∈ tags, rules.settings.fold tag ∈ rules.validTypes)

instance (rules : Rules) (names tags : List String) : Decidable (rules.Admits names tags) :=
  inferInstanceAs (Decidable (_ ∧ _ ∧ _))

theorem usable_iff {column : Column} :
    rules.usable column = true ↔ rules.Admits column.segments column.types := by
  rw [usable, Admits]
  cases hnames : column.segments with
  | nil => simp
  | cons name names =>
    cases htags : column.types with
    | nil => simp
    | cons tag tags =>
      cases hstrict : rules.settings.strict with
      | false => simp
      | true => simp [accepts, hnames, htags]

end Rules

namespace Schema

variable {rules : Rules} {sheet : Worksheet} {schema : Schema}

/-- Every column of a header with a schema was read. -/
theorem exists_column_of_foldlM {header : Header} {indices : List Nat} {before after : Schema}
    (h : indices.foldlM (addColumn rules sheet header) before = .ok after) :
    ∀ index ∈ indices, ∃ column, header.column sheet index = .ok column := by
  induction indices generalizing before with
  | nil => simp
  | cons index indices ih =>
    rw [List.foldlM_cons] at h
    obtain ⟨next, hstep, hrest⟩ := bind_eq_ok.mp h
    obtain ⟨column, hcolumn, -⟩ := addColumn_eq_ok hstep
    exact List.forall_mem_cons.mpr ⟨⟨column, hcolumn⟩, ih hrest⟩

/-- What a worksheet with a schema says: header rows that are all marked, up to one that is not, and
columns that can all be read. -/
theorem exists_header_of_ofSheet (h : ofSheet rules sheet = .ok schema) :
    ∃ extent header, sheet.extent = some extent ∧
      Header.Takes rules sheet (rules.clip extent).columns (List.range' 1 schema.headerRows) {}
        header ∧
      schema.headerRows ≤ (rules.clip extent).rows ∧
      (∀ row ∈ List.range' 1 schema.headerRows, (rules.keywordAt? sheet row).isSome) ∧
      (schema.headerRows < (rules.clip extent).rows →
        rules.keywordAt? sheet (1 + schema.headerRows) = none) ∧
      (∀ index ∈ rules.places extent,
        header.column sheet index = .ok (header.columnAt sheet index)) ∧
      schema = ofColumns header (rules.clip extent).rows
        (((rules.places extent).map (header.columnAt sheet)).filter rules.usable) := by
  obtain ⟨extent, header, hextent, hscan, hbuild⟩ := ofSheet_eq_ok h
  obtain ⟨same, sameHeader, hsame, hsameScan, hschema⟩ := ofSheet_eq_ofColumns h
  obtain rfl := Option.some.inj (hextent.symm.trans hsame)
  obtain rfl := Except.ok.inj (hscan.symm.trans hsameScan)
  obtain ⟨height, hle, htakes, hmarked, hstops⟩ :=
    @Header.takes_of_scan rules sheet _ _ 1 {} header rfl hscan
  have hheight : schema.headerRows = height := by
    rw [headerRows_of_build hbuild, htakes.height, List.length_range']
    exact Nat.zero_add height
  subst hheight
  obtain ⟨-, -, -, hfold⟩ := build_eq_ok hbuild
  refine ⟨extent, header, hextent, htakes, hle, hmarked, hstops, ?_, hschema⟩
  intro index hindex
  obtain ⟨column, hcolumn⟩ := exists_column_of_foldlM hfold index hindex
  rw [hcolumn, Header.columnAt_of_column hcolumn]

end Schema

end SheetCompiler
