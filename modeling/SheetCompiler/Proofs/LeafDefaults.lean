import SheetCompiler.Proofs.Shaping

/-!
# Defaults at the ends of paths

Defaults are looked up by dotted paths, and two lists of segments may have the same dotted path if
there is a dot in a segment.  Then a default of one field is taken for another one's, and it may
even stand at a field with further fields, which filling treats in two ways: by itself such a field
keeps its blanks, as an item of a list it does not.

Without dots in the segments this cannot happen.  Dotted paths tell the columns apart, every default
is at the end of a path, and no path ends where another one goes on (`Layout.EndDefaults`).  So both
ways of filling agree (`Record.fillField_eq_fillValue`).
-/

namespace SheetCompiler

/-- In the outline of a raw value no path goes on where another one ends. -/
theorem Value.IsRaw.eq_nil_of_append {outline : Outline} {value : Value} (h : IsRaw outline value)
    {front back : List String} (hfront : front ∈ outline) (hwhole : front ++ back ∈ outline) :
    back = [] := by
  induction h generalizing front with
  | cell hleaf hcell => exact (List.append_eq_nil_iff.mp (hleaf _ hwhole)).2
  | record hbranch hnames hfields ih =>
    obtain ⟨name, rest, rfl⟩ := List.exists_cons_of_ne_nil (hbranch _ hfront)
    obtain ⟨value, -, hmem, hrest⟩ := (IsRaw.record hbranch hnames hfields).exists_get? hfront
    exact ih _ hmem hrest (Outline.mem_below.mpr hwhole)

/-- No segment of a usable column has a dot in it. -/
def Schema.Plain (schema : Schema) : Prop :=
  ∀ column ∈ schema.columns, ∀ segment ∈ column.segments, FieldPath.separator ∉ segment.toList

theorem Schema.Plain.isPlain {schema : Schema} (hplain : schema.Plain) (h : schema.Lawful) :
    ∀ column ∈ schema.columns, ∀ segment ∈ column.segments, FieldPath.IsPlain segment :=
  fun column hcolumn segment hsegment =>
    ⟨(h.segments column hcolumn).2 segment hsegment, hplain column hcolumn segment hsegment⟩

namespace Layout

/-- There is a default only where a path ends. -/
def EndDefaults (layout : Layout) (path : String) (outline : Outline) : Prop :=
  ∀ front back, front ++ back ∈ outline → back ≠ [] →
    layout.fallback? (front.foldl FieldPath.extend path) = none

variable {layout : Layout} {path : String} {outline : Outline}

theorem EndDefaults.below (h : layout.EndDefaults path outline) (name : String) :
    layout.EndDefaults (FieldPath.extend path name) (outline.below name) := by
  intro front back hmem hback
  exact h (name :: front) back (Outline.mem_below.mp hmem) hback

/-- A field with further fields has no default. -/
theorem EndDefaults.branch (h : layout.EndDefaults path outline) (hne : outline ≠ [])
    (hbranch : outline.IsBranch) : layout.fallback? path = none := by
  obtain ⟨names, rest, rfl⟩ := List.exists_cons_of_ne_nil hne
  exact h [] names List.mem_cons_self (hbranch names List.mem_cons_self)

/-- The defaults of a header without dots in its segments stand where paths end, if there is a row
that goes with the header. -/
theorem endDefaults_of_plain {schema : Schema} (h : schema.Lawful) (hplain : schema.Plain)
    {raw : Record} (hraw : Value.IsRaw (Outline.ofColumns schema.columns) (.record raw))
    (settings : Settings) :
    (Layout.mk schema settings).EndDefaults "" (Outline.ofColumns schema.columns) := by
  intro front back hmem hback
  have hsegments := hplain.isPlain h
  cases hfallback : (Layout.mk schema settings).fallback? (front.foldl FieldPath.extend "") with
  | none => rfl
  | some text =>
    exfalso
    obtain ⟨-, column, hcolumn, hpath⟩ := h.fallbacks _ text hfallback
    obtain ⟨whole, hwhole, hsame⟩ := List.mem_map.mp hmem
    -- by its path the default belongs to a column with the segments `front`
    have hfront : front = column.segments := by
      refine FieldPath.ofSegments_inj (fun segment hsegment => ?_) (hsegments column hcolumn)
        (h.segments column hcolumn).1 hpath.symm
      refine hsegments whole hwhole segment ?_
      rw [hsame]
      exact List.mem_append_left _ hsegment
    have hend : front ∈ Outline.ofColumns schema.columns := by
      rw [hfront]
      exact List.mem_map_of_mem hcolumn
    exact hback (hraw.eq_nil_of_append hend hmem)

end Layout

namespace Record

variable {layout : Layout} {path : String} {outline : Outline}

/-- Where defaults stand at the ends of paths, both ways of filling agree. -/
theorem fillField_eq_fillValue {value : Value} (hends : layout.EndDefaults path outline)
    (h : Value.IsRaw outline value) (hne : outline ≠ []) :
    fillField layout path value = fillValue layout path value := by
  cases value with
  | null => rfl
  | scalar text => rfl
  | list items => rfl
  | record fields =>
    rw [fillField, hends.branch hne h.branch, Option.isSome_none, if_neg Bool.false_ne_true,
      fillValue]

end Record

end SheetCompiler
