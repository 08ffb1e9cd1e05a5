import SheetCompiler.Proofs.NumberedNames
import SheetCompiler.Proofs.QuotedText
import SheetCompiler.Proofs.Shaping

/-!
# What the written output says

The text of a value can be told from whatever follows it (`Value.Told`): its first character says of
which kind it is, a text ends at its closing quote, and the items of a list and the fields of a record
go on at a comma and end at a bracket.  By induction over the tree no two values have the same text
(`Value.compact_toJson_injective`).

The output of a sheet keeps its name, its types, its records and the metadata that does not use a
reserved name (`CompiledSheet.SameOutput`).  Nothing in it is written over, so the text of a workbook
says exactly that of every sheet, in order (`CompiledWorkbook.compact_toValue_eq_iff`).
-/

namespace SheetCompiler

open Json (chars itemChars memberChars quote)

/-! ## Texts of values -/

namespace Value

/-- The first character of the text of a value. -/
def opening : Value → Char
  | .null => 'n'
  | .scalar _ => '"'
  | .record _ => '\x7b'
  | .list _ => '['

theorem exists_chars_eq (value : Value) : ∃ rest, chars value.toJson = value.opening :: rest := by
  cases value with
  | null => exact ⟨['u', 'l', 'l'], by rw [toJson, chars, opening]⟩
  | scalar text => exact ⟨text.toList.flatMap Json.escape ++ ['"'], by rw [toJson, chars, quote, opening]⟩
  | record fields =>
    cases fields with
    | nil => exact ⟨['\x7d'], by rw [toJson, membersToJson, chars, opening]⟩
    | cons field rest => exact ⟨_, by rw [toJson, membersToJson, chars, opening]⟩
  | list items =>
    cases items with
    | nil => exact ⟨[']'], by rw [toJson, itemsToJson, chars, opening]⟩
    | cons item rest => exact ⟨_, by rw [toJson, itemsToJson, chars, opening]⟩

/-- Texts with the same beginning are of values of the same kind. -/
theorem opening_eq_of_chars {value other : Value} {x y : List Char}
    (h : chars value.toJson ++ x = chars other.toJson ++ y) : value.opening = other.opening := by
  obtain ⟨front, hvalue⟩ := exists_chars_eq value
  obtain ⟨back, hother⟩ := exists_chars_eq other
  rw [hvalue, hother] at h
  exact (List.cons.inj h).1

/-- The text of a value can be told from whatever follows it. -/
def Told (value : Value) : Prop :=
  ∀ (other : Value) (x y : List Char), chars value.toJson ++ x = chars other.toJson ++ y →
    value = other ∧ x = y

theorem told_null : Told .null := by
  intro other x y h
  cases other with
  | null => exact ⟨rfl, List.append_cancel_left h⟩
  | scalar text => exact absurd (opening_eq_of_chars h) (by simp [opening])
  | record fields => exact absurd (opening_eq_of_chars h) (by simp [opening])
  | list items => exact absurd (opening_eq_of_chars h) (by simp [opening])

theorem told_scalar (text : String) : Told (.scalar text) := by
  intro other x y h
  cases other with
  | null => exact absurd (opening_eq_of_chars h) (by simp [opening])
  | scalar other =>
    rw [toJson, toJson, chars, chars] at h
    obtain ⟨rfl, hrest⟩ := Json.quote_append_inj h
    exact ⟨rfl, hrest⟩
  | record fields => exact absurd (opening_eq_of_chars h) (by simp [opening])
  | list items => exact absurd (opening_eq_of_chars h) (by simp [opening])

theorem told_field {field : String × Value} (h : Told field.2) {other : String × Value}
    {x y : List Char} (heq : quote field.1 ++ ':' :: (chars field.2.toJson ++ x) =
      quote other.1 ++ ':' :: (chars other.2.toJson ++ y)) : field = other ∧ x = y := by
  obtain ⟨hname, hvalue⟩ := Json.quote_append_inj heq
  obtain ⟨hvalue, hrest⟩ := h _ _ _ (List.cons.inj hvalue).2
  exact ⟨Prod.ext hname hvalue, hrest⟩

/-- The fields after the first, up to the closing brace. -/
theorem told_memberChars {fields : List (String × Value)} (h : ∀ field ∈ fields, Told field.2)
    {others : List (String × Value)} {x y : List Char}
    (heq : memberChars (membersToJson fields) ++ x = memberChars (membersToJson others) ++ y) :
    fields = others ∧ x = y := by
  induction fields generalizing others with
  | nil =>
    cases others with
    | nil => exact ⟨rfl, List.append_cancel_left heq⟩
    | cons other others =>
      simp only [membersToJson, memberChars, List.cons_append] at heq
      exact absurd (List.cons.inj heq).1 (by decide)
  | cons field fields ih =>
    obtain ⟨hfield, hfields⟩ := List.forall_mem_cons.mp h
    cases others with
    | nil =>
      simp only [membersToJson, memberChars, List.cons_append] at heq
      exact absurd (List.cons.inj heq).1 (by decide)
    | cons other others =>
      simp only [membersToJson, memberChars, List.cons_append, List.append_assoc] at heq
      obtain ⟨rfl, hmembers⟩ := told_field hfield (List.cons.inj heq).2
      obtain ⟨rfl, hrest⟩ := ih hfields hmembers
      exact ⟨rfl, hrest⟩

/-- The items after the first, up to the closing bracket. -/
theorem told_itemChars {items : List Value} (h : ∀ item ∈ items, Told item)
    {others : List Value} {x y : List Char}
    (heq : itemChars (itemsToJson items) ++ x = itemChars (itemsToJson others) ++ y) :
    items = others ∧ x = y := by
  induction items generalizing others with
  | nil =>
    cases others with
    | nil => exact ⟨rfl, List.append_cancel_left heq⟩
    | cons other others =>
      simp only [itemsToJson, itemChars, List.cons_append] at heq
      exact absurd (List.cons.inj heq).1 (by decide)
  | cons item items ih =>
    obtain ⟨hitem, hitems⟩ := List.forall_mem_cons.mp h
    cases others with
    | nil =>
      simp only [itemsToJson, itemChars, List.cons_append] at heq
      exact absurd (List.cons.inj heq).1 (by decide)
    | cons other others =>
      simp only [itemsToJson, itemChars, List.cons_append, List.append_assoc] at heq
      obtain ⟨rfl, hmore⟩ := hitem _ _ _ (List.cons.inj heq).2
      obtain ⟨rfl, hrest⟩ := ih hitems hmore
      exact ⟨rfl, hrest⟩

/-- The first character of a value is never the end of a list. -/
theorem chars_ne_closing (value : Value) (x y : List Char) :
    chars value.toJson ++ x ≠ ']' :: y := by
  intro h
  obtain ⟨rest, hchars⟩ := exists_chars_eq value
  rw [hchars] at h
  have hopening := (List.cons.inj h).1
  cases value <;> simp [opening] at hopening

theorem told_record {fields : List (String × Value)} (h : ∀ field ∈ fields, Told field.2) :
    Told (.record fields) := by
  intro other x y heq
  cases other with
  | null => exact absurd (opening_eq_of_chars heq) (by simp [opening])
  | scalar text => exact absurd (opening_eq_of_chars heq) (by simp [opening])
  | list items => exact absurd (opening_eq_of_chars heq) (by simp [opening])
  | record others =>
    cases fields with
    | nil =>
      cases others with
      | nil => exact ⟨rfl, List.append_cancel_left heq⟩
      | cons other others =>
        simp only [toJson, membersToJson, chars, quote, List.cons_append] at heq
        exact absurd (List.cons.inj (List.cons.inj heq).2).1 (by decide)
    | cons field fields =>
      obtain ⟨hfield, hfields⟩ := List.forall_mem_cons.mp h
      cases others with
      | nil =>
        simp only [toJson, membersToJson, chars, quote, List.cons_append] at heq
        exact absurd (List.cons.inj (List.cons.inj heq).2).1 (by decide)
      | cons other others =>
        simp only [toJson, membersToJson, chars, List.cons_append, List.append_assoc] at heq
        obtain ⟨rfl, hmembers⟩ := told_field hfield (List.cons.inj heq).2
        obtain ⟨rfl, hrest⟩ := told_memberChars hfields hmembers
        exact ⟨rfl, hrest⟩

theorem told_list {items : List Value} (h : ∀ item ∈ items, Told item) : Told (.list items) := by
  intro other x y heq
  cases other with
  | null => exact absurd (opening_eq_of_chars heq) (by simp [opening])
  | scalar text => exact absurd (opening_eq_of_chars heq) (by simp [opening])
  | record fields => exact absurd (opening_eq_of_chars heq) (by simp [opening])
  | list others =>
    cases items with
    | nil =>
      cases others with
      | nil => exact ⟨rfl, List.append_cancel_left heq⟩
      | cons other others =>
        simp only [toJson, itemsToJson, chars, List.cons_append, List.append_assoc] at heq
        exact absurd (List.cons.inj heq).2.symm (chars_ne_closing _ _ _)
    | cons item items =>
      obtain ⟨hitem, hitems⟩ := List.forall_mem_cons.mp h
      cases others with
      | nil =>
        simp only [toJson, itemsToJson, chars, List.cons_append, List.append_assoc] at heq
        exact absurd (List.cons.inj heq).2 (chars_ne_closing _ _ _)
      | cons other others =>
        simp only [toJson, itemsToJson, chars, List.cons_append, List.append_assoc] at heq
        obtain ⟨rfl, hmore⟩ := hitem _ _ _ (List.cons.inj heq).2
        obtain ⟨rfl, hrest⟩ := told_itemChars hitems hmore
        exact ⟨rfl, hrest⟩

theorem told (value : Value) : Told value :=
  treeInduction told_null told_scalar (fun _ => told_record) (fun _ => told_list) value

/-- No two values have the same text. -/
theorem compact_toJson_injective : Function.Injective fun value : Value => value.toJson.compact := by
  intro value other h
  have hchars : chars value.toJson = chars other.toJson := String.ofList_injective h
  exact (told value other [] [] (by rw [hchars])).1

end Value

/-! ## The output of a sheet -/

namespace CompiledSheet

/-- What the output of a sheet keeps of it. -/
structure SameOutput (sheet other : CompiledSheet) : Prop where
  name : sheet.name = other.name
  types : sheet.types = other.types
  records : sheet.records = other.records
  metadata : Entries.without reservedKeys sheet.metadata =
    Entries.without reservedKeys other.metadata

theorem textRecord_injective : Function.Injective textRecord := by
  refine List.map_injective_iff.mpr fun entry other h => ?_
  obtain ⟨hname, htext⟩ := Prod.mk.inj h
  exact Prod.ext hname (Value.scalar.inj htext)

theorem outputPairs_eq_iff {sheet other : CompiledSheet} :
    sheet.outputPairs = other.outputPairs ↔ SameOutput sheet other := by
  constructor
  · intro h
    simp only [outputPairs, List.cons_append, List.nil_append, List.cons.injEq, Prod.mk.injEq,
      Value.scalar.injEq, Value.record.injEq, Value.list.injEq, true_and] at h
    obtain ⟨hname, htypes, hrecords, hmetadata⟩ := h
    exact ⟨hname, textRecord_injective htypes,
      List.map_injective_iff.mpr (fun _ _ => Value.record.inj) hrecords,
      textRecord_injective hmetadata⟩
  · rintro ⟨hname, htypes, hrecords, hmetadata⟩
    rw [outputPairs, outputPairs, hname, htypes, hrecords, hmetadata]

instance (sheet other : CompiledSheet) : Decidable (SameOutput sheet other) :=
  decidable_of_iff _ outputPairs_eq_iff

theorem SameOutput.toValue_eq {sheet other : CompiledSheet} (h : SameOutput sheet other) :
    sheet.toValue = other.toValue := by
  rw [toValue, toValue, outputPairs_eq_iff.mpr h]

theorem toValue_eq_iff {sheet other : CompiledSheet}
    (hsheet : (Entries.names sheet.metadata).Nodup) (hother : (Entries.names other.metadata).Nodup) :
    sheet.toValue = other.toValue ↔ SameOutput sheet other := by
  rw [toValue_eq hsheet, toValue_eq hother, Value.record.injEq, outputPairs_eq_iff]

end CompiledSheet

/-! ## The output of a workbook -/

namespace CompiledWorkbook

open CompiledSheet (SameOutput)

/-- Sheets whose outputs keep the same are written in the same way. -/
theorem foldl_addOutput_congr {sheets others : List CompiledSheet}
    (h : List.Forall₂ SameOutput sheets others) (output : Record) :
    sheets.foldl addOutput output = others.foldl addOutput output := by
  induction h generalizing output with
  | nil => rfl
  | cons hsame _ ih =>
    rw [List.foldl_cons, List.foldl_cons, ih, addOutput, addOutput, hsame.name, hsame.toValue_eq]

/-- Whoever reads the output of a workbook knows the output of every sheet. -/
theorem map_toValue_eq_of_toValue_eq {left right : CompiledWorkbook}
    (h : left.toValue = right.toValue) :
    left.sheets.map CompiledSheet.toValue = right.sheets.map CompiledSheet.toValue := by
  have hvalues := congrArg (List.map Prod.snd) (Value.record.inj h)
  rwa [map_snd_foldl_addOutput, map_snd_foldl_addOutput] at hvalues

theorem forall₂_of_map_toValue_eq {sheets others : List CompiledSheet}
    (hsheets : ∀ sheet ∈ sheets, (Entries.names sheet.metadata).Nodup)
    (hothers : ∀ sheet ∈ others, (Entries.names sheet.metadata).Nodup)
    (h : sheets.map CompiledSheet.toValue = others.map CompiledSheet.toValue) :
    List.Forall₂ SameOutput sheets others := by
  induction sheets generalizing others with
  | nil =>
    rw [List.map_nil] at h
    rw [List.map_eq_nil_iff.mp h.symm]
    exact .nil
  | cons sheet sheets ih =>
    obtain ⟨other, others, rfl, hvalue, hvalues⟩ := List.map_eq_cons_iff.mp h.symm
    rw [List.forall_mem_cons] at hsheets hothers
    exact .cons ((CompiledSheet.toValue_eq_iff hsheets.1 hothers.1).mp hvalue.symm)
      (ih hsheets.2 hothers.2 hvalues.symm)

/-- The texts of two workbooks are equal exactly when these have equally many sheets, and sheets in
the same place agree in what the output of a sheet keeps. -/
theorem compact_toValue_eq_iff {left right : CompiledWorkbook}
    (hleft : ∀ sheet ∈ left.sheets, (Entries.names sheet.metadata).Nodup)
    (hright : ∀ sheet ∈ right.sheets, (Entries.names sheet.metadata).Nodup) :
    left.toValue.toJson.compact = right.toValue.toJson.compact ↔
      List.Forall₂ SameOutput left.sheets right.sheets := by
  rw [Value.compact_toJson_injective.eq_iff]
  constructor
  · intro h
    exact forall₂_of_map_toValue_eq hleft hright (map_toValue_eq_of_toValue_eq h)
  · intro h
    rw [toValue, toValue, foldl_addOutput_congr h]

/-- Three sheets, two of which share a name that the third one spells with a number. -/
def ledgers (note : Entries String) (remark : Value) : CompiledWorkbook where
  sheets :=
    [⟨"Ledger", [("Remark", "string")], [[("Remark", .scalar "a, \"b\"")]], note⟩,
      ⟨"Ledger", [("Remark", "string")], [[("Remark", remark)]], [("owner", "c\n")]⟩,
      ⟨"Ledger (2)", [], [], []⟩]

/-- Metadata under a reserved name is not in the text, but whether a field holds nothing or the word
for nothing is. -/
theorem ledgers_compact :
    (ledgers [("owner", "d"), ("sheet", "e")] .null).toValue.toJson.compact =
        (ledgers [("owner", "d")] .null).toValue.toJson.compact ∧
      (ledgers [] .null).toValue.toJson.compact ≠
        (ledgers [] (.scalar "null")).toValue.toJson.compact := by
  constructor
  · refine (compact_toValue_eq_iff (by decide) (by decide)).mpr ?_
    exact .cons (by decide) (.cons (by decide) (.cons (by decide) .nil))
  · intro h
    have hsame := (compact_toValue_eq_iff (by decide) (by decide)).mp h
    exact absurd (List.forall₂_cons.mp (List.forall₂_cons.mp hsame).2).1 (by decide)

end CompiledWorkbook

end SheetCompiler
