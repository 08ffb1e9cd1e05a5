import SheetCompiler.Proofs.BlankedColumns
import SheetCompiler.Proofs.ColumnDeclarations

/-!
# Registering a custom keyword

A custom keyword turns notes into something that columns collect.  That costs the metadata the notes
of that name, however they are written, and changes nothing else: a worksheet compiles to the same
types and records with it as without it, or fails for the same reason
(`CompiledSheet.ofWorksheet_collecting`).

Two headers are read in step, one without and one with the keyword.  What the second one has in its
metadata is what the first one has there under other names (`Header.Collects`), and a header row
keeps it so (`Header.Collects.addRow`).  The columns collect more with the keyword, but the same
under the built-in ones (`Rules.valuesUnder_collecting`), and so they declare the same.
-/

namespace SheetCompiler

namespace Entries

variable {α : Type} {keeps : String → Bool} {name : String}

/-- The entries of some names. -/
def keeping (keeps : String → Bool) (entries : Entries α) : Entries α :=
  entries.filter fun entry => keeps entry.1

theorem keeping_cons_of_pos (h : keeps name = true) (value : α) (rest : Entries α) :
    keeping keeps ((name, value) :: rest) = (name, value) :: keeping keeps rest :=
  List.filter_cons_of_pos h

theorem keeping_cons_of_neg (h : ¬ keeps name = true) (value : α) (rest : Entries α) :
    keeping keeps ((name, value) :: rest) = keeping keeps rest :=
  List.filter_cons_of_neg h

/-- Leaving out other names does not change what a name reads as. -/
theorem get?_keeping (h : keeps name = true) (entries : Entries α) :
    get? name (keeping keeps entries) = get? name entries := by
  induction entries with
  | nil => rfl
  | cons entry rest ih =>
    obtain ⟨key, old⟩ := entry
    by_cases hname : key = name
    · subst hname
      rw [keeping_cons_of_pos h, get?, get?, if_pos rfl, if_pos rfl]
    · rw [get?, if_neg hname, ← ih]
      by_cases hkey : keeps key = true
      · rw [keeping_cons_of_pos hkey, get?, if_neg hname]
      · rw [keeping_cons_of_neg hkey]

/-- Leaving out other names and writing under a name commute. -/
theorem keeping_put_of_pos (h : keeps name = true) (value : α) (entries : Entries α) :
    keeping keeps (put name value entries) = put name value (keeping keeps entries) := by
  induction entries with
  | nil => exact keeping_cons_of_pos h value []
  | cons entry rest ih =>
    obtain ⟨key, old⟩ := entry
    by_cases hname : key = name
    · subst hname
      rw [put, if_pos rfl, keeping_cons_of_pos h, keeping_cons_of_pos h, put, if_pos rfl]
    · rw [put, if_neg hname]
      by_cases hkey : keeps key = true
      · rw [keeping_cons_of_pos hkey, keeping_cons_of_pos hkey, ih, put, if_neg hname]
      · rw [keeping_cons_of_neg hkey, keeping_cons_of_neg hkey, ih]

/-- What is written under a name that is left out leaves no trace. -/
theorem keeping_put_of_neg (h : ¬ keeps name = true) (value : α) (entries : Entries α) :
    keeping keeps (put name value entries) = keeping keeps entries := by
  induction entries with
  | nil => exact keeping_cons_of_neg h value []
  | cons entry rest ih =>
    obtain ⟨key, old⟩ := entry
    by_cases hname : key = name
    · subst hname
      rw [put, if_pos rfl, keeping_cons_of_neg h, keeping_cons_of_neg h]
    · rw [put, if_neg hname]
      by_cases hkey : keeps key = true
      · rw [keeping_cons_of_pos hkey, keeping_cons_of_pos hkey, ih]
      · rw [keeping_cons_of_neg hkey, keeping_cons_of_neg hkey, ih]

end Entries

/-! ## The rules with one more keyword -/

namespace Rules

variable {rules : Rules} {sheet : Worksheet} {row : Nat} {k key note : String}

/-- The rules with one more custom keyword. -/
def collecting (rules : Rules) (k : String) : Rules :=
  { rules with
    settings := { rules.settings with customKeywords := rules.settings.customKeywords ++ [k] } }

/-- A name that is not the custom keyword, however both are written. -/
def keeps (rules : Rules) (k name : String) : Bool :=
  decide (rules.settings.fold name ≠ rules.settings.fold (Text.trim k))

/-- The rules of the same settings with one more custom keyword. -/
theorem ofSettings_collecting {settings : Settings} (h : ofSettings settings = .ok rules)
    (k : String) :
    ofSettings { settings with customKeywords := settings.customKeywords ++ [k] } =
      .ok (rules.collecting k) := by
  obtain ⟨hcheck, identifier, hidentifier, rfl⟩ := ofSettings_eq_ok.mp h
  exact ofSettings_eq_ok.mpr ⟨hcheck, identifier, hidentifier, rfl⟩

theorem mem_keywords_collecting : key ∈ (rules.collecting k).keywords ↔
    key ∈ rules.keywords ∨ key = rules.settings.fold (Text.trim k) := by
  have hkeywords : (rules.collecting k).keywords =
      rules.keywords ++ [rules.settings.fold (Text.trim k)] := by
    rw [keywords, keywords, collecting, List.map_append, List.append_assoc]
    rfl
  rw [hkeywords, List.mem_append, List.mem_singleton]

/-- Rows under a keyword that columns collect. -/
theorem keyAt?_eq_some : rules.keyAt? sheet row = some key ↔
    ∃ keyword, rules.keywordAt? sheet row = some keyword ∧ ¬ keyword.isEmpty = true ∧
      rules.settings.fold keyword = key ∧ key ∈ rules.keywords := by
  rw [keyAt?, Option.bind_eq_some_iff]
  refine exists_congr fun keyword => and_congr_right fun _ => ?_
  by_cases hempty : keyword.isEmpty = true
  · rw [if_pos hempty]
    exact ⟨fun h => (Option.some_ne_none _ h.symm).elim, fun h => absurd hempty h.1⟩
  · rw [if_neg hempty, recognize?_eq_some, and_iff_right hempty]

/-- Rows of a note. -/
theorem noteAt?_eq_some : rules.noteAt? sheet row = some note ↔
    rules.keywordAt? sheet row = some note ∧ ¬ note.isEmpty = true ∧
      rules.settings.fold note ∉ rules.keywords := by
  constructor
  · intro h
    refine ⟨keywordAt?_of_noteAt? h, ?_⟩
    rw [noteAt?, keywordAt?_of_noteAt? h, Option.bind_some] at h
    split at h
    · cases h
    · rename_i hnote
      rwa [Bool.or_eq_true, not_or, isSome_recognize?] at hnote
  · rintro ⟨hkeyword, hnote⟩
    rw [noteAt?, hkeyword, Option.bind_some, if_neg]
    rwa [Bool.or_eq_true, not_or, isSome_recognize?]

/-- The rows under a keyword that was collected before stay the same. -/
theorem keyAt?_collecting (hkey : key ∈ rules.keywords) :
    (rules.collecting k).keyAt? sheet row = some key ↔ rules.keyAt? sheet row = some key := by
  rw [keyAt?_eq_some, keyAt?_eq_some, mem_keywords_collecting, or_iff_left_of_imp fun _ => hkey]
  exact Iff.rfl

/-- The notes of other names stay the same. -/
theorem noteAt?_collecting : (rules.collecting k).noteAt? sheet row = some note ↔
    rules.noteAt? sheet row = some note ∧ rules.keeps k note = true := by
  rw [noteAt?_eq_some, noteAt?_eq_some, mem_keywords_collecting, keeps, decide_eq_true_eq,
    not_or, and_assoc, and_assoc]
  exact Iff.rfl

/-- Under a built-in keyword a column collects the same. -/
theorem valuesUnder_collecting (hkey : key ∈ Keyword.builtIn) (k : String) (rows : List Nat)
    (column : Nat) :
    (rules.collecting k).valuesUnder sheet rows key column =
      rules.valuesUnder sheet rows key column := by
  rw [valuesUnder, valuesUnder, List.filter_congr fun row _ => ?_]
  rw [Bool.eq_iff_iff, beq_iff_eq, beq_iff_eq,
    keyAt?_collecting (mem_keywords_of_mem_builtIn hkey rules)]

end Rules

/-! ## The header rows -/

namespace Header

variable {rules : Rules} {sheet : Worksheet} {columns row : Nat} {k keyword : String}
  {header other next otherNext : Header}

/-- A header that was read with a custom keyword, and the one that was read without it. -/
structure Collects (rules : Rules) (k : String) (header other : Header) : Prop where
  rows : header.rows = other.rows
  metadata : other.metadata = Entries.keeping (rules.keeps k) header.metadata

/-- A note of another name is taken in by both headers. -/
theorem Collects.metadata_of_keeps (h : Collects rules k header other)
    (hnote : rules.noteAt? sheet row = some keyword) (hkeeps : rules.keeps k keyword = true)
    (hadd : Header.addRow rules sheet columns row keyword header = .ok next)
    (hotherAdd : Header.addRow (rules.collecting k) sheet columns row keyword other =
      .ok otherNext) :
    otherNext.metadata = Entries.keeping (rules.keeps k) next.metadata := by
  have hotherNote := Rules.noteAt?_collecting.mpr ⟨hnote, hkeeps⟩
  have hstep := metadata_of_noteAt? hnote hadd
  have hotherStep := metadata_of_noteAt? hotherNote hotherAdd
  have hknown : Entries.get? keyword other.metadata = Entries.get? keyword header.metadata := by
    rw [h.metadata, Entries.get?_keeping hkeeps]
  have htexts : (rules.collecting k).textsOf sheet columns [row] keyword =
      rules.textsOf sheet columns [row] keyword := by
    rw [Rules.textsOf_of_noteAt? hnote, Rules.textsOf_of_noteAt? hotherNote]
  rw [hknown, htexts] at hotherStep
  rcases hstep with ⟨hkept, hvalue⟩ | ⟨value, hnone, hvalue, hput⟩
  · rcases hotherStep with ⟨hotherKept, -⟩ | ⟨value, hnone, hotherValue, -⟩
    · rw [hotherKept, hkept, h.metadata]
    · rw [hnone, hotherValue] at hvalue
      cases hvalue
  · rcases hotherStep with ⟨-, hotherValue⟩ | ⟨otherValue, -, hotherValue, hotherPut⟩
    · rw [hnone, hvalue] at hotherValue
      cases hotherValue
    · obtain rfl := Option.some.inj (hvalue.symm.trans hotherValue)
      rw [hotherPut, hput, h.metadata, Entries.keeping_put_of_pos hkeeps]

/-- Both headers take in the same row. -/
theorem Collects.addRow (h : Collects rules k header other)
    (hkeyword : rules.keywordAt? sheet row = some keyword)
    (hadd : Header.addRow rules sheet columns row keyword header = .ok next)
    (hotherAdd : Header.addRow (rules.collecting k) sheet columns row keyword other =
      .ok otherNext) : Collects rules k next otherNext := by
  refine ⟨(rows_of_addRow hadd).trans (rows_of_addRow hotherAdd).symm, ?_⟩
  have hotherKeyword : (rules.collecting k).keywordAt? sheet row = some keyword := hkeyword
  have hskipped : (∀ note, rules.noteAt? sheet row = some note → ¬ rules.keeps k note = true) →
      otherNext.metadata = other.metadata := by
    intro hdrops
    refine metadata_of_noteAt?_none hotherKeyword ?_ hotherAdd
    refine Option.eq_none_iff_forall_ne_some.mpr fun note hnote => ?_
    obtain ⟨hnote, hkeeps⟩ := Rules.noteAt?_collecting.mp hnote
    exact hdrops note hnote hkeeps
  cases hnote : rules.noteAt? sheet row with
  | none =>
    rw [hskipped (by rw [hnote]; exact nofun), metadata_of_noteAt?_none hkeyword hnote hadd,
      h.metadata]
  | some note =>
    obtain rfl := Option.some.inj (hkeyword.symm.trans (Rules.keywordAt?_of_noteAt? hnote))
    by_cases hkeeps : rules.keeps k keyword = true
    · exact h.metadata_of_keeps hnote hkeeps hadd hotherAdd
    · -- the second header collects the row, the first one may note it under a name left out
      have hdrops : ∀ note, rules.noteAt? sheet row = some note → ¬ rules.keeps k note = true := by
        rw [hnote]
        rintro note ⟨⟩
        exact hkeeps
      rw [hskipped hdrops, h.metadata]
      rcases metadata_of_noteAt? hnote hadd with ⟨hkept, -⟩ | ⟨value, -, -, hput⟩
      · rw [hkept]
      · rw [hput, Entries.keeping_put_of_neg hkeeps]

/-- Both headers are read in step. -/
theorem Collects.scan : ∀ {count row : Nat} {header other last otherLast : Header},
    Collects rules k header other →
    Header.scan rules sheet columns count row header = .ok last →
    Header.scan (rules.collecting k) sheet columns count row other = .ok otherLast →
    Collects rules k last otherLast
  | 0, _, _, _, _, _, h, hscan, hotherScan => by
    rwa [← Except.ok.inj hscan, ← Except.ok.inj hotherScan]
  | count + 1, row, header, other, last, otherLast, h, hscan, hotherScan => by
    rw [scan_succ] at hscan hotherScan
    obtain ⟨cell, hread, hscan⟩ := bind_eq_ok.mp hscan
    obtain ⟨same, hsame, hotherScan⟩ := bind_eq_ok.mp hotherScan
    obtain rfl := Except.ok.inj (hread.symm.trans hsame)
    have hkeywordAt := Rules.keywordAt?_eq rules hread
    rw [show (rules.collecting k).settings.marker = rules.settings.marker from rfl] at hotherScan
    cases hkeyword : cell.bind (keyword? rules.settings.marker) with
    | none =>
      simp only [hkeyword] at hscan hotherScan
      rwa [← Except.ok.inj hscan, ← Except.ok.inj hotherScan]
    | some keyword =>
      simp only [hkeyword] at hscan hotherScan
      obtain ⟨next, hadd, hscan⟩ := bind_eq_ok.mp hscan
      obtain ⟨otherNext, hotherAdd, hotherScan⟩ := bind_eq_ok.mp hotherScan
      exact (h.addRow (hkeywordAt.trans hkeyword) hadd hotherAdd).scan hscan hotherScan

end Header

/-! ## What a worksheet compiles to -/

namespace Schema

variable {rules : Rules} {sheet : Worksheet} {k : String} {schema otherSchema : Schema}

/-- With the keyword the metadata lacks the notes of that name. -/
theorem metadata_collecting (hschema : ofSheet rules sheet = .ok schema)
    (hother : ofSheet (rules.collecting k) sheet = .ok otherSchema) :
    otherSchema.metadata = Entries.keeping (rules.keeps k) schema.metadata := by
  obtain ⟨extent, header, hextent, hscan, rfl⟩ := ofSheet_eq_ofColumns hschema
  obtain ⟨same, otherHeader, hsame, hotherScan, rfl⟩ := ofSheet_eq_ofColumns hother
  obtain rfl := Option.some.inj (hextent.symm.trans hsame)
  have hempty : Header.Collects rules k {} {} := ⟨rfl, rfl⟩
  exact (hempty.scan hscan hotherScan).metadata

theorem sameFields_collecting (hschema : ofSheet rules sheet = .ok schema)
    (hother : ofSheet (rules.collecting k) sheet = .ok otherSchema) :
    schema.SameFields otherSchema := by
  obtain ⟨extent, header, hextent, -⟩ := ofSheet_eq_ok hschema
  have hheight : schema.headerRows = otherSchema.headerRows := by
    rw [(header_of_ofSheet hextent hschema).1, (header_of_ofSheet hextent hother).1]
    rfl
  refine sameFields_of_ofSheet hschema hother rfl rfl rfl hheight ?_
  intro _ _ key hkey index _
  rw [hheight, Rules.valuesUnder_collecting hkey]

end Schema

namespace CompiledSheet

variable {rules : Rules} {sheet : Worksheet}

/-- Registering a custom keyword never changes the data.  With one more keyword a worksheet that can
be read compiles to the same, or fails for the same reason; only the metadata lacks what it has under
that keyword, when names are trimmed and folded. -/
theorem ofWorksheet_collecting (hread : rules.CanRead sheet) (k : String) :
    ofWorksheet (rules.collecting k) sheet = (ofWorksheet rules sheet).map fun compiled =>
      { compiled with
        metadata := compiled.metadata.filter fun entry =>
          rules.settings.fold entry.1 ≠ rules.settings.fold (Text.trim k) } := by
  have hotherRead : (rules.collecting k).CanRead sheet := fun extent hextent row column hreaches =>
    hread extent hextent row column
      ⟨hreaches.row_pos, hreaches.row_le, hreaches.column_pos, hreaches.column_le⟩
  rcases ofSheet_cases hread hotherRead rfl rfl fun _ _ _ => Iff.rfl with
    ⟨fault, hfault, hotherFault⟩ | ⟨schema, otherSchema, hschema, hother⟩
  · rw [ofWorksheet, ofWorksheet, hfault, hotherFault]
    rfl
  · have hagrees : (Layout.mk schema rules.settings).Agrees
        ⟨schema, (rules.collecting k).settings⟩ :=
      ⟨fun _ => rfl, fun _ => rfl, fun _ => rfl⟩
    rw [ofWorksheet_eq_of_sameFields hschema hother
      (Schema.sameFields_collecting hschema hother) rfl hagrees fun _ _ _ _ => rfl,
      Schema.metadata_collecting hschema hother, ofWorksheet_eq hschema]
    cases rawRows sheet schema.columns (dataRows schema) <;> rfl

/-- A shop with two notes that differ in letter case only, and another one. -/
def shop : Grid where
  name := "Shop"
  rows := [
    ["#var", "Name", "Price"],
    ["#type", "string", "int"],
    ["#Memo", "first"],
    ["#note", "", "kept"],
    ["#memo", "", "second"],
    ["", "Rope", "2"]]

/-- With the custom keyword the shop compiles to the same, but for both notes of that name. -/
theorem shop_ofWorksheet_collecting : ∃ rules collecting compiled,
    Rules.ofSettings {} = .ok rules ∧ rules.CanRead shop.worksheet ∧
    Rules.ofSettings { customKeywords := [" MEMO "] } = .ok collecting ∧
    ofWorksheet rules shop.worksheet = .ok compiled ∧
    compiled.records = [[("Name", .scalar "Rope"), ("Price", .scalar "2")]] ∧
    compiled.metadata = [("Memo", "first"), ("note", "kept"), ("memo", "second")] ∧
    ofWorksheet collecting shop.worksheet =
      .ok { compiled with metadata := [("note", "kept")] } := by
  have hsome : ((Rules.ofSettings {}).toOption.bind fun rules =>
      (ofWorksheet rules shop.worksheet).toOption.map fun compiled =>
        (compiled.records, compiled.metadata)) =
      some ([[("Name", .scalar "Rope"), ("Price", .scalar "2")]],
        [("Memo", "first"), ("note", "kept"), ("memo", "second")]) := by
    decide +kernel
  obtain ⟨rules, hrules, hsome⟩ := Option.bind_eq_some_iff.mp hsome
  obtain ⟨compiled, hcompiled, hboth⟩ := Option.map_eq_some_iff.mp hsome
  obtain ⟨hrecords, hmetadata⟩ := Prod.mk.inj hboth
  have hrules := eq_ok_of_toOption hrules
  have hcompiled := eq_ok_of_toOption hcompiled
  have hread := canRead_grid rules (show shop.merged = [] from rfl)
  have hsame := ofWorksheet_collecting hread " MEMO "
  have hkept : ([("Memo", "first"), ("note", "kept"), ("memo", "second")] : Entries String).filter
      (fun entry => ({} : Settings).fold entry.1 ≠ ({} : Settings).fold (Text.trim " MEMO ")) =
        [("note", "kept")] := by
    decide +kernel
  rw [hcompiled, Rules.settings_of_ofSettings hrules] at hsame
  refine ⟨rules, rules.collecting " MEMO ", compiled, hrules, hread,
    Rules.ofSettings_collecting hrules _, hcompiled, hrecords, hmetadata, hsame.trans ?_⟩
  rw [Except.map, hmetadata, hkept]

end CompiledSheet

end SheetCompiler
