import Mathlib.Data.List.Induction
import Mathlib.Data.List.Nodup
import Mathlib.Order.Bounds.Defs
import SheetCompiler.Compiled.Workbook

/-!
# Numbered names

Where a name is taken, numbers are tried behind it until the result is free.  Different numbers have
different digits (`toDigits_injective`), so among more numbers than there are taken names one is free
(`exists_notMem_of_injective`), and the search for it stops at a free name (`freeName_notMem`).

So no sheet of a workbook is written over another one, and no metadata over what its sheet says of
itself: the output of a workbook has one field for each sheet (`map_snd_foldl_addOutput`), and the
output of a sheet is what is written for it, in order (`CompiledSheet.toValue_eq`).

Which name a sheet gets depends on the names before it only, whether these are names of sheets or
numbered ones (`CompiledWorkbook.IsKey`, `CompiledWorkbook.toValue_keeps_sheets`).
-/

namespace SheetCompiler

/-! ## Numbers -/

theorem toDigits_injective : Function.Injective (Nat.toDigits 10) := by
  intro n m h
  calc n = Nat.ofDigitChars 10 (Nat.toDigits 10 n) 0 := Nat.ofDigitChars_ten_toDigits.symm
    _ = Nat.ofDigitChars 10 (Nat.toDigits 10 m) 0 := by rw [h]
    _ = m := Nat.ofDigitChars_ten_toDigits

/-- Of more numbers than a list is long, one leads out of the list. -/
theorem exists_notMem_of_injective {α : Type} {f : Nat → α} (hf : Function.Injective f)
    (taken : List α) (first : Nat) :
    ∃ n, first ≤ n ∧ n ≤ first + taken.length ∧ f n ∉ taken := by
  by_contra hnone
  have htaken : ∀ n, first ≤ n → n ≤ first + taken.length → f n ∈ taken := fun n hle hlt =>
    Classical.byContradiction fun hfree => hnone ⟨n, hle, hlt, hfree⟩
  have hnodup : ((List.range' first (taken.length + 1)).map f).Nodup :=
    (List.nodup_range' 1).map hf
  have hsubset : (List.range' first (taken.length + 1)).map f ⊆ taken := by
    intro value hvalue
    obtain ⟨n, hn, rfl⟩ := List.mem_map.mp hvalue
    obtain ⟨hle, hlt⟩ := List.mem_range'_1.mp hn
    exact htaken n hle (by omega)
  have hlength := hnodup.length_le_of_subset hsubset
  rw [List.length_map, List.length_range'] at hlength
  omega

/-! ## Names of sheets -/

namespace CompiledWorkbook

variable {taken : List String} {name : String}

theorem toList_numbered (name : String) (number : Nat) :
    (numbered name number).toList =
      name.toList ++ (' ' :: '(' :: (Nat.toDigits 10 number ++ [')'])) := by
  have hself : ∀ text : String, toString text = text := fun _ => rfl
  simp [numbered, hself]

theorem numbered_injective (name : String) : Function.Injective (numbered name) := by
  intro number other h
  have hchars := congrArg String.toList h
  rw [toList_numbered, toList_numbered] at hchars
  have htail := List.append_cancel_left hchars
  simp only [List.cons.injEq, true_and] at htail
  exact toDigits_injective (List.append_cancel_right htail)

theorem firstFree_notMem {count number : Nat}
    (h : ∃ n, number ≤ n ∧ n ≤ number + count ∧ numbered name n ∉ taken) :
    firstFree taken name count number ∉ taken := by
  induction count generalizing number with
  | zero =>
    obtain ⟨n, hle, hlt, hfree⟩ := h
    obtain rfl : number = n := by omega
    exact hfree
  | succ count ih =>
    rw [firstFree]
    split
    · rename_i htaken
      obtain ⟨n, hle, hlt, hfree⟩ := h
      have hne : n ≠ number := by
        rintro rfl
        exact hfree (List.contains_iff_mem.mp htaken)
      exact ih ⟨n, by omega, by omega, hfree⟩
    · rename_i hfree
      exact fun hmem => hfree (List.contains_iff_mem.mpr hmem)

/-- The name that is chosen is free. -/
theorem freeName_notMem (taken : List String) (name : String) : freeName taken name ∉ taken := by
  rw [freeName]
  split
  · exact firstFree_notMem (exists_notMem_of_injective (numbered_injective name) taken 2)
  · rename_i hfree
    exact fun hmem => hfree (List.contains_iff_mem.mpr hmem)

theorem addOutput_eq (output : Record) (sheet : CompiledSheet) :
    addOutput output sheet =
      output ++ [(freeName (Entries.names output) sheet.name, sheet.toValue)] :=
  Entries.put_of_notMem (freeName_notMem _ _) _

/-- Every sheet has a field of its own in the output, in order. -/
theorem map_snd_foldl_addOutput (sheets : List CompiledSheet) (output : Record) :
    (sheets.foldl addOutput output).map Prod.snd =
      output.map Prod.snd ++ sheets.map CompiledSheet.toValue := by
  induction sheets generalizing output with
  | nil => rw [List.foldl_nil, List.map_nil, List.append_nil]
  | cons sheet rest ih =>
    rw [List.foldl_cons, ih, addOutput_eq, List.map_append, List.map_singleton,
      List.append_assoc, List.singleton_append, List.map_cons]

/-! ## The least free number -/

/-- The name that a sheet is written under, after the taken ones: its own name if that is free, else
its name with the least number behind it, from two on, that makes it free. -/
inductive IsKey (taken : List String) (name : String) : String → Prop
  | own (hfree : name ∉ taken) : IsKey taken name name
  | numbered {number : Nat} (htaken : name ∈ taken)
      (hleast : IsLeast {n | 2 ≤ n ∧ numbered name n ∉ taken} number) :
      IsKey taken name (numbered name number)

/-- The search stops at a number, and all numbers before it are taken. -/
theorem exists_firstFree_eq (taken : List String) (name : String) (count number : Nat) :
    ∃ n, firstFree taken name count number = numbered name n ∧ number ≤ n ∧
      ∀ m, number ≤ m → m < n → numbered name m ∈ taken := by
  induction count generalizing number with
  | zero => exact ⟨number, rfl, Nat.le_refl _, fun m hle hlt => by omega⟩
  | succ count ih =>
    rw [firstFree]
    split
    · rename_i htaken
      obtain ⟨n, hn, hle, hbefore⟩ := ih (number + 1)
      refine ⟨n, hn, by omega, fun m hm hlt => ?_⟩
      rcases Nat.eq_or_lt_of_le hm with rfl | hnext
      · exact List.contains_iff_mem.mp htaken
      · exact hbefore m hnext hlt
    · exact ⟨number, rfl, Nat.le_refl _, fun m hle hlt => by omega⟩

theorem isKey_freeName (taken : List String) (name : String) :
    IsKey taken name (freeName taken name) := by
  have hfree := freeName_notMem taken name
  rw [freeName] at hfree ⊢
  split
  · rename_i htaken
    obtain ⟨n, hn, hle, hbefore⟩ := exists_firstFree_eq taken name taken.length 2
    rw [if_pos htaken, hn] at hfree
    rw [hn]
    refine .numbered (List.contains_iff_mem.mp htaken) ⟨⟨hle, hfree⟩, fun m hm => ?_⟩
    by_contra hlt
    exact hm.2 (hbefore m hm.1 (by omega))
  · rename_i hnew
    exact .own fun hmem => hnew (List.contains_iff_mem.mpr hmem)

/-- The keys of the sheets, from the first one on: no two are the same, and each is what the keys
before it leave for its sheet. -/
theorem keys_foldl_addOutput (sheets : List CompiledSheet) :
    (Entries.names (sheets.foldl addOutput [])).Nodup ∧
    ∀ (i : Nat) (sheet : CompiledSheet), sheets[i]? = some sheet →
      ∃ key, (Entries.names (sheets.foldl addOutput []))[i]? = some key ∧
        IsKey ((Entries.names (sheets.foldl addOutput [])).take i) sheet.name key := by
  induction sheets using List.reverseRecOn with
  | nil => exact ⟨List.nodup_nil, fun i sheet h => by cases h⟩
  | append_singleton sheets last ih =>
    obtain ⟨hnodup, hkeys⟩ := ih
    have hlength : (Entries.names (sheets.foldl addOutput [])).length = sheets.length := by
      have hvalues := congrArg List.length (map_snd_foldl_addOutput sheets [])
      rwa [List.map_nil, List.nil_append, List.length_map, List.length_map,
        ← List.length_map (f := Prod.fst)] at hvalues
    have hnames : Entries.names ((sheets ++ [last]).foldl addOutput []) =
        Entries.names (sheets.foldl addOutput []) ++
          [freeName (Entries.names (sheets.foldl addOutput [])) last.name] := by
      rw [List.foldl_append, List.foldl_cons, List.foldl_nil, addOutput_eq, Entries.names,
        List.map_append]
      rfl
    rw [hnames]
    generalize Entries.names (sheets.foldl addOutput []) = keys at hnodup hkeys hlength
    refine ⟨?_, fun i sheet hsheet => ?_⟩
    · rw [← List.concat_eq_append]
      exact hnodup.concat (freeName_notMem keys last.name)
    · by_cases hi : i < sheets.length
      · rw [List.getElem?_append_left hi] at hsheet
        rw [List.getElem?_append_left (by omega), List.take_append_of_le_length (by omega)]
        exact hkeys i sheet hsheet
      · have hlt := (List.getElem?_eq_some_iff.mp hsheet).1
        rw [List.length_append, List.length_singleton] at hlt
        obtain rfl : i = sheets.length := by omega
        rw [List.getElem?_concat_length, Option.some.injEq] at hsheet
        subst hsheet
        rw [← hlength, List.getElem?_concat_length, List.take_left]
        exact ⟨_, rfl, isKey_freeName keys last.name⟩

/-- No sheet is lost to a clash of names.  The output of a workbook is a record with one field for
each sheet, in order, that holds what is written for this sheet.  The keys of the fields are
different, and each of them is the name of its sheet, or where an earlier key is that name already,
the name with the least number from two on that no earlier key is. -/
theorem toValue_keeps_sheets (workbook : CompiledWorkbook) :
    ∃ fields : Record, workbook.toValue = .record fields ∧
      fields.map Prod.snd = workbook.sheets.map CompiledSheet.toValue ∧
      (Entries.names fields).Nodup ∧
      ∀ (i : Nat) (sheet : CompiledSheet), workbook.sheets[i]? = some sheet →
        ∃ key, (Entries.names fields)[i]? = some key ∧
          IsKey ((Entries.names fields).take i) sheet.name key := by
  refine ⟨workbook.sheets.foldl addOutput [], rfl, ?_, keys_foldl_addOutput workbook.sheets⟩
  rw [map_snd_foldl_addOutput, List.map_nil, List.nil_append]

/-- Sheets of three names, two of which look like numbered ones. -/
def drafts : CompiledWorkbook where
  sheets := ["S (2)", "S", "S", "S (3)", "S"].map fun name =>
    { name := name, types := [], records := [], metadata := [] }

/-- The third sheet steps past the name of the first one and takes the name of the fourth one. -/
theorem drafts_keep_sheets : ∃ fields : Record, drafts.toValue = .record fields ∧
    Entries.names fields = ["S (2)", "S", "S (3)", "S (3) (2)", "S (4)"] ∧
    fields.map Prod.snd = drafts.sheets.map CompiledSheet.toValue ∧
    (Entries.names fields).Nodup ∧ IsKey ["S (2)", "S"] "S" "S (3)" := by
  obtain ⟨fields, hfields, hvalues, hnodup, hkeys⟩ := toValue_keeps_sheets drafts
  have hnames : Entries.names fields = ["S (2)", "S", "S (3)", "S (3) (2)", "S (4)"] := by
    rw [← Value.record.inj hfields]
    decide +kernel
  obtain ⟨key, hkey, hfirst⟩ := hkeys 2 _ rfl
  rw [hnames] at hkey hfirst
  obtain rfl : "S (3)" = key := Option.some.inj hkey
  exact ⟨fields, hfields, hnames, hvalues, hnodup, hfirst⟩

end CompiledWorkbook

/-! ## Names in the output of a sheet -/

namespace CompiledSheet

theorem names_textRecord (entries : Entries String) :
    Entries.names (textRecord entries) = Entries.names entries := by
  rw [Entries.names, textRecord, List.map_map]
  rfl

/-- Metadata without reserved names has none of them. -/
theorem notMem_names_without {name : String} {dropped : List String} {entries : Entries String}
    (h : name ∈ dropped) : name ∉ Entries.names (Entries.without dropped entries) := by
  intro hmem
  obtain ⟨entry, hentry, rfl⟩ := List.mem_map.mp hmem
  have hkept := (List.mem_filter.mp hentry).2
  rw [List.contains_iff_mem.mpr h] at hkept
  cases hkept

theorem names_outputPairs (sheet : CompiledSheet) :
    Entries.names sheet.outputPairs =
      reservedKeys ++ Entries.names (Entries.without reservedKeys sheet.metadata) := by
  rw [← names_textRecord, Entries.names, outputPairs, List.map_append]
  rfl

/-- Nothing that is written for a sheet is written over. -/
theorem toValue_eq {sheet : CompiledSheet} (h : (Entries.names sheet.metadata).Nodup) :
    sheet.toValue = .record sheet.outputPairs := by
  have hnames : (Entries.names sheet.outputPairs).Nodup := by
    rw [names_outputPairs]
    refine List.nodup_append.mpr ⟨by decide, ?_, ?_⟩
    · exact h.sublist (List.filter_sublist.map Prod.fst)
    · rintro name hreserved _ hmem rfl
      exact notMem_names_without hreserved hmem
  rw [toValue, Entries.ofPairs_of_nodup hnames]

end CompiledSheet

end SheetCompiler
