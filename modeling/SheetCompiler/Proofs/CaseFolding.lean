import SheetCompiler.Proofs.HeaderRows
import SheetCompiler.Proofs.LowercaseParts

/-!
# Settings with and without regard to letter case

Without regard to letter case, keywords, type tags and the list marker are compared in lower case.
What is equal stays equal, so every keyword that is recognized and every type tag that strict mode
accepts with regard to letter case is so without it, too.  Neither depends on the pattern of
identifiers, nor on whether there is one.

The list marker is not compared but looked for in a type tag, and both are put into lower case by
themselves.  In a tag, a capital sigma of the marker may end a word where it does not in the marker, or
the other way round, and then the marker is no part of the tag any more.  So a tag that holds the marker
as it is written stays a list tag for a marker that reads alike in every place, and for no other
(`Settings.accepts_withCase_false`).
-/

namespace SheetCompiler

open Text (lowerBetween FoldsAlike)

namespace Settings

variable {settings : Settings} {tag : String}

theorem containsText_iff (part text : List Char) :
    containsText part text = true ↔ part <:+: text := by
  induction text with
  | nil => rw [containsText, List.isEmpty_iff, List.infix_nil]
  | cons c rest ih =>
    rw [containsText, Bool.or_eq_true, List.isPrefixOf_iff_prefix, ih, List.infix_cons_iff]

theorem isListTag_iff (settings : Settings) (tag : String) : settings.isListTag tag = true ↔
    (settings.fold settings.listMarker).toList <:+: (settings.fold tag).toList :=
  containsText_iff _ _

/-- The settings, with or without regard to letter case. -/
def withCase (settings : Settings) (on : Bool) : Settings :=
  { settings with caseSensitive := on }

theorem fold_withCase_true (settings : Settings) (text : String) :
    (settings.withCase true).fold text = text := rfl

theorem fold_withCase_false (settings : Settings) (text : String) :
    (settings.withCase false).fold text = Text.lowercase text := rfl

/-- With regard to letter case, list tags hold the marker as it is written. -/
theorem isListTag_withCase_true : (settings.withCase true).isListTag tag = true ↔
    settings.listMarker.toList <:+: tag.toList :=
  isListTag_iff _ _

/-- Without it, list tags in lower case hold what the marker is in lower case by itself. -/
theorem isListTag_withCase_false : (settings.withCase false).isListTag tag = true ↔
    lowerBetween [] settings.listMarker.toList [] <:+: lowerBetween [] tag.toList [] := by
  rw [isListTag_iff, fold_withCase_false, fold_withCase_false, Text.toList_lowercase,
    Text.toList_lowercase]
  rfl

end Settings

/-! ## Equal texts -/

namespace Rules

variable {settings : Settings} {exact folded : Rules}

/-- The built-in keywords are in lower case. -/
theorem lowercase_of_mem_builtIn : ∀ keyword ∈ Keyword.builtIn, Text.lowercase keyword = keyword := by
  decide +kernel

/-- Keywords that are recognized as they are written are recognized in lower case. -/
theorem recognize?_withCase (hexact : exact.settings = settings.withCase true)
    (hfolded : folded.settings = settings.withCase false) (keyword : String)
    (h : (exact.recognize? keyword).isSome = true) :
    (folded.recognize? keyword).isSome = true := by
  rw [isSome_recognize?, hexact, Settings.fold_withCase_true] at h
  rw [isSome_recognize?, hfolded, Settings.fold_withCase_false]
  rcases List.mem_append.mp h with hbuiltIn | hcustom
  · rw [lowercase_of_mem_builtIn keyword hbuiltIn]
    exact mem_keywords_of_mem_builtIn hbuiltIn folded
  · obtain ⟨custom, hmem, hkeyword⟩ := List.mem_map.mp hcustom
    have hcustoms : exact.settings.customKeywords = folded.settings.customKeywords := by
      rw [hexact, hfolded]
      rfl
    rw [hcustoms] at hmem
    rw [hexact, Settings.fold_withCase_true] at hkeyword
    refine List.mem_append_right _ (List.mem_map.mpr ⟨custom, hmem, ?_⟩)
    rw [hfolded, Settings.fold_withCase_false, hkeyword]

/-- Type tags that are valid as they are written are valid in lower case. -/
theorem validTypes_withCase (hexact : exact.settings = settings.withCase true)
    (hfolded : folded.settings = settings.withCase false) (tag : String)
    (h : exact.settings.fold tag ∈ exact.validTypes) :
    folded.settings.fold tag ∈ folded.validTypes := by
  obtain ⟨valid, hmem, htag⟩ := List.mem_map.mp h
  have hvalid : exact.settings.validTypes = folded.settings.validTypes := by
    rw [hexact, hfolded]
    rfl
  rw [hvalid] at hmem
  rw [hexact, Settings.fold_withCase_true, Settings.fold_withCase_true] at htag
  exact List.mem_map.mpr ⟨tag, htag ▸ hmem, rfl⟩

end Rules

/-! ## Texts in other texts -/

namespace Settings

variable {settings : Settings}

/-- A tag with the marker in a place where it reads as it does by itself. -/
theorem isListTag_withCase_false_of_alike {front back : List Char}
    (h : lowerBetween front.reverse settings.listMarker.toList back =
      lowerBetween [] settings.listMarker.toList []) :
    (settings.withCase false).isListTag
      (String.ofList (front ++ settings.listMarker.toList ++ back)) = true := by
  rw [isListTag_withCase_false, String.toList_ofList, List.append_assoc, Text.lowerBetween_append,
    Text.lowerBetween_append, List.append_nil, List.append_nil, List.append_nil, h]
  exact ⟨_, _, List.append_assoc ..⟩

/-- Tags that hold the marker as it is written stay list tags without regard to letter case exactly
when the marker reads alike in every place. -/
theorem isListTag_withCase_iff : (∀ tag, (settings.withCase true).isListTag tag = true →
      (settings.withCase false).isListTag tag = true) ↔ FoldsAlike settings.listMarker.toList := by
  constructor
  · intro h
    have hlist : ∀ text, settings.listMarker.toList <:+: text →
        lowerBetween [] settings.listMarker.toList [] <:+: lowerBetween [] text [] := by
      intro text htext
      have hfolded := h (String.ofList text)
        (isListTag_withCase_true.mpr (by rwa [String.toList_ofList]))
      rwa [isListTag_withCase_false, String.toList_ofList] at hfolded
    -- a letter before the marker and one after it are enough
    exact Text.foldsAlike_of_infix (hlist _ (List.suffix_cons _ _).isInfix)
      (hlist _ (List.prefix_append _ _).isInfix)
  · intro h tag htag
    obtain ⟨front, back, hsplit⟩ := isListTag_withCase_true.mp htag
    have hfolded := isListTag_withCase_false_of_alike (h front.reverse back)
    rwa [hsplit, String.ofList_toList] at hfolded

/-- What is accepted with regard to letter case is so without it: every keyword that is recognized,
every valid type tag, and every list tag whose marker, where it stands, reads as it does by itself.
All list tags are, exactly for a marker that reads alike in every place, such as any marker without a
capital sigma. -/
theorem accepts_withCase_false (settings : Settings) :
    (∀ exact folded : Rules, exact.settings = settings.withCase true →
      folded.settings = settings.withCase false →
        (∀ keyword, (exact.recognize? keyword).isSome = true →
          (folded.recognize? keyword).isSome = true) ∧
        ∀ tag, exact.settings.fold tag ∈ exact.validTypes →
          folded.settings.fold tag ∈ folded.validTypes) ∧
      (∀ front back, lowerBetween front.reverse settings.listMarker.toList back =
          lowerBetween [] settings.listMarker.toList [] →
        (settings.withCase false).isListTag
          (String.ofList (front ++ settings.listMarker.toList ++ back)) = true) ∧
      ((∀ tag, (settings.withCase true).isListTag tag = true →
        (settings.withCase false).isListTag tag = true) ↔
          FoldsAlike settings.listMarker.toList) ∧
      ('Σ' ∉ settings.listMarker.toList → FoldsAlike settings.listMarker.toList) := by
  refine ⟨fun exact folded hexact hfolded => ⟨?_, ?_⟩,
    fun _ _ => isListTag_withCase_false_of_alike, isListTag_withCase_iff, Text.foldsAlike_of_notMem⟩
  · exact Rules.recognize?_withCase hexact hfolded
  · exact Rules.validTypes_withCase hexact hfolded

/-- Settings with a keyword and a list marker in Greek. -/
def greek : Settings where
  customKeywords := ["Σχόλιο"]
  listMarker := "ΛΙΣΤΑ"

/-- The sigma inside this marker ends no word, wherever the marker stands. -/
theorem greek_accepts_withCase_false :
    (∃ exact folded, Rules.ofSettings (greek.withCase true) = .ok exact ∧
      (exact.recognize? "Σχόλιο").isSome = true ∧
        Rules.ofSettings (greek.withCase false) = .ok folded ∧
          (folded.recognize? "Σχόλιο").isSome = true) ∧
      (greek.withCase true).isListTag "ΛΙΣΤΑΣ" = true ∧
        (greek.withCase false).isListTag "ΛΙΣΤΑΣ" = true := by
  obtain ⟨haccepts, hplace, -, -⟩ := accepts_withCase_false greek
  have hsome : ((Rules.ofSettings (greek.withCase true)).toOption.bind fun exact =>
      (Rules.ofSettings (greek.withCase false)).toOption.map fun _ =>
        (exact.recognize? "Σχόλιο").isSome) = some true := by
    decide +kernel
  obtain ⟨exact, hexact, hsome⟩ := Option.bind_eq_some_iff.mp hsome
  obtain ⟨folded, hfolded, hkeyword⟩ := Option.map_eq_some_iff.mp hsome
  have hexact := eq_ok_of_toOption hexact
  have hfolded := eq_ok_of_toOption hfolded
  obtain ⟨hkeywords, -⟩ := haccepts exact folded (Rules.settings_of_ofSettings hexact)
    (Rules.settings_of_ofSettings hfolded)
  exact ⟨⟨exact, folded, hexact, hkeyword, hfolded, hkeywords _ hkeyword⟩, by decide +kernel,
    hplace [] ['Σ'] (by decide +kernel)⟩

/-- Settings with a list marker that ends in a capital sigma. -/
def endingInSigma : Settings where
  listMarker := "ΛΙΣ"

/-- That sigma ends a word in the marker, but not in the tag. -/
theorem endingInSigma_listTag_lost : endingInSigma.check = .ok () ∧
    (endingInSigma.withCase true).isListTag "ΛΙΣΤΑ" = true ∧
      (endingInSigma.withCase false).isListTag "ΛΙΣΤΑ" = false := by
  refine ⟨?_, by decide +kernel, by decide +kernel⟩
  rw [check_eq_ok_iff, checkValues_eq_ok_iff]
  decide +kernel

end Settings

end SheetCompiler
