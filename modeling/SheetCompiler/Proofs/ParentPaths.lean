import Mathlib.Data.List.DropRight
import SheetCompiler.Proofs.FileNames

/-!
# Parents of paths

The parent of a path is cut out of its text, so the parts before the last one stay as they are written.
Pieces that are no parts may stand anywhere in the text, and the ones that a cut leaves at the end are
left out with it.  What opens a path opens its parent in the same way (`FilePath.opening_shortened`), and
the parts of the parent are those of the path without the last one (`FilePath.parts_of_parent?`).  Only
the root and the empty path have no parent (`FilePath.parent?_eq_none_iff`).
-/

namespace SheetCompiler

namespace FilePath

variable {path above : FilePath} {chars body : List Char} {pieces front : List (List Char)}
  {piece : List Char}

/-! ## Pieces without an idle end -/

theorem dropIdleEnd_isPrefix (pieces : List (List Char)) : dropIdleEnd pieces <+: pieces :=
  List.rdropWhile_prefix isIdle pieces

theorem dropIdleEnd_eq_nil_iff : dropIdleEnd pieces = [] ↔ ∀ piece ∈ pieces, isIdle piece = true :=
  List.rdropWhile_eq_nil_iff

theorem isIdle_of_dropIdleEnd (h : dropIdleEnd pieces = front ++ [piece]) :
    isIdle piece = false := by
  have hne : pieces.rdropWhile isIdle ≠ [] := by
    show dropIdleEnd pieces ≠ []
    simp [h]
  have hlast : (pieces.rdropWhile isIdle).getLast hne = piece := by
    have hsame : pieces.rdropWhile isIdle = front ++ [piece] := h
    simp [hsame]
  rw [← hlast]
  exact Bool.eq_false_iff.mpr (List.rdropWhile_last_not isIdle pieces hne)

/-- Idle pieces are no parts, so leaving them out at the end leaves out none. -/
theorem filter_dropIdleEnd (pieces : List (List Char)) :
    ((dropIdleEnd pieces).filter fun piece => !isIdle piece) =
      pieces.filter fun piece => !isIdle piece := by
  have hidle : ((pieces.rtakeWhile isIdle).filter fun piece => !isIdle piece) = [] := by
    refine List.filter_eq_nil_iff.mpr fun piece hpiece => ?_
    rw [List.mem_rtakeWhile_imp hpiece]
    decide
  conv_rhs => rw [← List.rdropWhile_append_rtakeWhile (l := pieces) (p := isIdle)]
  rw [List.filter_append, hidle, List.append_nil]
  rfl

/-- The parts of glued pieces. -/
theorem bodyParts_glue (h : ∀ piece ∈ pieces, FilePath.separator ∉ piece) :
    bodyParts (Text.glue FilePath.separator pieces) =
      (pieces.filter fun piece => !isIdle piece).map partOf := by
  by_cases hne : pieces = []
  · rw [hne]
    rfl
  · rw [bodyParts, Text.cut_glue hne h]

/-! ## Leaving out the last part -/

/-- The text of a path behind its opening, without the last part. -/
def shortened (body : List Char) : List Char :=
  Text.glue FilePath.separator
    (dropIdleEnd (dropIdleEnd (Text.cut FilePath.separator body)).dropLast)

theorem shortened_eq (h : dropIdleEnd (Text.cut FilePath.separator body) = front ++ [piece]) :
    shortened body = Text.glue FilePath.separator (dropIdleEnd front) := by
  rw [shortened, h, List.dropLast_concat]

theorem prefix_of_dropIdleEnd (h : dropIdleEnd pieces = front ++ [piece]) :
    dropIdleEnd front <+: pieces :=
  ((dropIdleEnd_isPrefix front).trans ⟨[piece], h.symm⟩).trans (dropIdleEnd_isPrefix pieces)

theorem separator_notMem_of_dropIdleEnd
    (h : dropIdleEnd (Text.cut FilePath.separator body) = front ++ [piece]) :
    ∀ piece ∈ dropIdleEnd front, FilePath.separator ∉ piece := fun _ hpiece =>
  Text.notMem_of_mem_cut ((prefix_of_dropIdleEnd h).subset hpiece)

/-- The last part is the last piece that is not idle. -/
theorem bodyParts_shortened
    (h : dropIdleEnd (Text.cut FilePath.separator body) = front ++ [piece]) :
    bodyParts body = bodyParts (shortened body) ++ [partOf piece] := by
  rw [shortened_eq h, bodyParts_glue (separator_notMem_of_dropIdleEnd h), filter_dropIdleEnd,
    bodyParts, ← filter_dropIdleEnd, h, List.filter_append, List.map_append, List.filter_singleton,
    isIdle_of_dropIdleEnd h]
  rfl

/-- A path without its last part is opened as before. -/
theorem opening_shortened
    (h : dropIdleEnd (Text.cut FilePath.separator (opening chars).2) = front ++ [piece]) :
    opening (chars.take (chars.length - (opening chars).2.length) ++ shortened (opening chars).2) =
      ((opening chars).1, shortened (opening chars).2) := by
  have hfront : shortened (opening chars).2 <+: (opening chars).2 := by
    obtain ⟨back, hback⟩ := prefix_of_dropIdleEnd h
    rw [shortened_eq h]
    conv_rhs => rw [← Text.glue_cut FilePath.separator (opening chars).2, ← hback]
    exact Text.glue_prefix FilePath.separator _ back
  revert h hfront
  fun_cases opening chars with
  | case1 rest =>
    intro h hfront
    rw [List.length_cons, Nat.add_sub_cancel_left]
    rfl
  | case2 =>
    intro h
    exact absurd h (List.append_ne_nil_of_right_ne_nil front (List.cons_ne_nil piece [])).symm
  | case3 rest =>
    -- the body begins with a separator, and so does what is left of it, if there is anything
    intro _ hfront
    rw [List.length_cons, List.length_cons, Nat.add_sub_cancel_left]
    cases hshort : shortened ('/' :: rest) with
    | nil => rfl
    | cons c more =>
      rw [hshort, List.cons_prefix_cons] at hfront
      rw [hfront.1]
      rfl
  | case4 _ hroot hdot hhere =>
    intro h hfront
    rw [Nat.sub_self, List.take_zero, List.nil_append]
    obtain ⟨back, hback⟩ := hfront
    refine opening_eq_none (fun rest hsame => ?_) (fun hsame => ?_) fun rest hsame => ?_
    · exact hroot (rest ++ back) (hback.symm.trans (by rw [hsame]; rfl))
    · -- a dot alone would be an idle piece at the end
      have hcut : dropIdleEnd front = [['.']] := by
        rw [shortened_eq h] at hsame
        rw [← Text.cut_glue _ (separator_notMem_of_dropIdleEnd h), hsame]
        · rfl
        · intro hnil
          rw [hnil] at hsame
          cases hsame
      have hidle := isIdle_of_dropIdleEnd (hcut.trans (List.nil_append _).symm)
      revert hidle
      decide
    · exact hhere (rest ++ back) (hback.symm.trans (by rw [hsame]; rfl))

/-! ## Parts of parents -/

theorem dropIdleEnd_cut_eq_nil_iff :
    dropIdleEnd (Text.cut FilePath.separator body) = [] ↔ bodyParts body = [] := by
  rw [dropIdleEnd_eq_nil_iff, bodyParts_eq_nil_iff]

theorem parent?_of_idle (h : bodyParts (opening path.text.toList).2 = []) : path.parent? =
    if (opening path.text.toList).1 = some .here then some ⟨""⟩ else none := by
  rw [parent?]
  simp only [dropIdleEnd_cut_eq_nil_iff.mpr h]

theorem parent?_of_ne_nil (h : bodyParts (opening path.text.toList).2 ≠ []) : path.parent? =
    some ⟨String.ofList (path.text.toList.take
      (path.text.toList.length - (opening path.text.toList).2.length) ++
        shortened (opening path.text.toList).2)⟩ := by
  obtain ⟨piece, rest, hpieces⟩ := List.exists_cons_of_ne_nil (mt dropIdleEnd_cut_eq_nil_iff.mp h)
  rw [parent?, shortened]
  simp only [hpieces]

theorem opening_cases (chars : List Char) :
    (opening chars).1 = none ∨ (opening chars).1 = some .root ∨ (opening chars).1 = some .here := by
  unfold opening
  split
  · exact Or.inr (Or.inl rfl)
  · exact Or.inr (Or.inr rfl)
  · exact Or.inr (Or.inr rfl)
  · exact Or.inl rfl

/-- A path with a last part in its body has a parent with the other parts. -/
theorem exists_parent? (h : bodyParts (opening path.text.toList).2 ≠ []) :
    ∃ above last, path.parent? = some above ∧ path.parts = above.parts ++ [last] ∧
      last ≠ .root := by
  obtain ⟨front, piece, hsplit⟩ : ∃ front piece,
      dropIdleEnd (Text.cut FilePath.separator (opening path.text.toList).2) = front ++ [piece] :=
    ⟨_, _, (List.dropLast_concat_getLast (mt dropIdleEnd_cut_eq_nil_iff.mp h)).symm⟩
  refine ⟨_, partOf piece, parent?_of_ne_nil h, ?_, ?_⟩
  · rw [parts_eq, parts_eq, String.toList_ofList, opening_shortened hsplit,
      bodyParts_shortened hsplit, List.append_assoc]
  · rw [partOf]
    intro hroot
    split at hroot <;> cases hroot

/-- The parts of a parent are those of the path without the last one, which is not the root. -/
theorem parts_of_parent? (h : path.parent? = some above) :
    ∃ last, path.parts = above.parts ++ [last] ∧ last ≠ .root := by
  by_cases hbody : bodyParts (opening path.text.toList).2 = []
  · rw [parent?_of_idle hbody, Option.ite_none_right_eq_some] at h
    obtain ⟨hhere, habove⟩ := h
    refine ⟨.here, ?_, nofun⟩
    rw [← Option.some.inj habove, parts_eq, hhere, hbody]
    rfl
  · obtain ⟨other, last, hparent, hparts⟩ := exists_parent? hbody
    rw [hparent] at h
    exact ⟨last, Option.some.inj h ▸ hparts⟩

/-- The empty path and the root have no parent. -/
theorem parent?_eq_none_iff : path.parent? = none ↔ path.parts = [] ∨ path.parts = [.root] := by
  by_cases hbody : bodyParts (opening path.text.toList).2 = []
  · rw [parent?_of_idle hbody, parts_eq, hbody, List.append_nil]
    rcases opening_cases path.text.toList with hfirst | hfirst | hfirst <;> rw [hfirst] <;> decide
  · obtain ⟨above, last, hparent, hparts, hroot⟩ := exists_parent? hbody
    refine iff_of_false (by rw [hparent]; nofun) ?_
    rw [hparts]
    rintro (hnil | hsingle)
    · exact absurd hnil (List.append_ne_nil_of_right_ne_nil _ (List.cons_ne_nil _ _))
    · have hlast := congrArg List.getLast? hsingle
      rw [List.getLast?_concat] at hlast
      exact hroot (Option.some.inj hlast)

/-- Characters that open nothing begin with a part. -/
theorem bodyParts_ne_nil_of_opening (h : (opening chars).1 = none) (hne : chars ≠ []) :
    bodyParts (opening chars).2 ≠ [] := by
  revert h
  fun_cases opening chars with
  | case1 rest =>
    intro h
    cases h
  | case2 =>
    intro h
    cases h
  | case3 rest =>
    intro h
    cases h
  | case4 _ hroot hdot hhere =>
    intro _ hnil
    obtain ⟨first, rest, hcut⟩ :=
      List.exists_cons_of_ne_nil (Text.cut_ne_nil FilePath.separator chars)
    have hglue := Text.glue_cut FilePath.separator chars
    rw [bodyParts_eq_nil_iff, hcut] at hnil
    have hidle := hnil first List.mem_cons_self
    rw [isIdle, Bool.or_eq_true, List.isEmpty_iff, beq_iff_eq] at hidle
    rw [hcut] at hglue
    -- an idle piece in front is a separator or a dot in front
    rcases hidle with rfl | rfl
    · cases rest with
      | nil => exact hne hglue.symm
      | cons next rest => exact hroot _ hglue.symm
    · cases rest with
      | nil => exact hdot hglue.symm
      | cons next rest => exact hhere _ hglue.symm

/-- The empty path has no parts, and no other one. -/
theorem parts_eq_nil_iff : path.parts = [] ↔ path.text = "" := by
  constructor
  · intro h
    rw [parts_eq, List.append_eq_nil_iff, Option.toList_eq_nil_iff] at h
    by_contra hne
    exact bodyParts_ne_nil_of_opening h.1 (by simpa using hne) h.2
  · intro h
    rw [parts_eq, h]
    rfl

end FilePath

end SheetCompiler
