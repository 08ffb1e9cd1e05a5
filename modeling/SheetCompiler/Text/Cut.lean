/-!
# Cutting texts at a separator

`cut` gives the pieces of a text between the occurrences of one character, empty pieces included, and
`glue` puts pieces together again.  A text is never lost by cutting it (`glue_cut`), and pieces come
back as they were if none of them holds the separator (`cut_glue`).
-/

namespace SheetCompiler.Text

/-- The pieces between separators; a text without one is its only piece. -/
def cut (separator : Char) : List Char → List (List Char)
  | [] => [[]]
  | c :: rest =>
    match cut separator rest with
    | [] => [[c]]
    | first :: others =>
      if c = separator then [] :: first :: others else (c :: first) :: others

/-- Pieces with a separator between any two of them. -/
def glue (separator : Char) : List (List Char) → List Char
  | [] => []
  | [piece] => piece
  | piece :: next :: rest => piece ++ separator :: glue separator (next :: rest)

@[simp] theorem cut_nil (separator : Char) : cut separator [] = [[]] := rfl

theorem cut_ne_nil (separator : Char) (chars : List Char) : cut separator chars ≠ [] := by
  cases chars with
  | nil => simp
  | cons c rest =>
    rw [cut]
    split
    · simp
    · split <;> simp

theorem cut_separator (separator : Char) (rest : List Char) :
    cut separator (separator :: rest) = [] :: cut separator rest := by
  rw [cut]
  split
  · exact absurd ‹_› (cut_ne_nil separator rest)
  · rename_i h
    simp [h]

theorem cut_cons_of_ne {separator c : Char} (h : c ≠ separator) (rest : List Char) :
    cut separator (c :: rest) =
      (c :: (cut separator rest).headD []) :: (cut separator rest).tail := by
  rw [cut]
  split
  · exact absurd ‹_› (cut_ne_nil separator rest)
  · rename_i hc
    simp [hc, h]

theorem glue_cons_head (separator c : Char) (piece : List Char) (rest : List (List Char)) :
    glue separator ((c :: piece) :: rest) = c :: glue separator (piece :: rest) := by
  cases rest <;> simp [glue]

theorem glue_append_head (separator : Char) (front piece : List Char) (rest : List (List Char)) :
    glue separator ((front ++ piece) :: rest) = front ++ glue separator (piece :: rest) := by
  cases rest <;> simp [glue]

/-- The first pieces are glued to the front of the text. -/
theorem glue_prefix (separator : Char) (front back : List (List Char)) :
    glue separator front <+: glue separator (front ++ back) := by
  induction front with
  | nil => exact List.nil_prefix
  | cons piece front ih =>
    cases front with
    | nil =>
      cases back with
      | nil => exact List.prefix_rfl
      | cons next back => exact List.prefix_append piece _
    | cons next front =>
      rw [List.cons_append, List.cons_append, glue, glue, List.prefix_append_right_inj,
        List.cons_prefix_cons, ← List.cons_append]
      exact ⟨rfl, ih⟩

/-- Gluing the pieces of a text gives the text. -/
theorem glue_cut (separator : Char) (chars : List Char) :
    glue separator (cut separator chars) = chars := by
  induction chars with
  | nil => rfl
  | cons c rest ih =>
    by_cases h : c = separator
    · subst h
      rw [cut_separator]
      cases hr : cut c rest with
      | nil => exact absurd hr (cut_ne_nil c rest)
      | cons first others => simp [glue, ← hr, ih]
    · rw [cut_cons_of_ne h]
      cases hr : cut separator rest with
      | nil => exact absurd hr (cut_ne_nil separator rest)
      | cons first others =>
        rw [hr] at ih
        simp [glue_cons_head, ih]

/-- A text without the separator is its only piece. -/
theorem cut_of_notMem {separator : Char} {chars : List Char} (h : separator ∉ chars) :
    cut separator chars = [chars] := by
  induction chars with
  | nil => rfl
  | cons c rest ih =>
    simp only [List.mem_cons, not_or] at h
    rw [cut_cons_of_ne (Ne.symm h.1), ih h.2]
    rfl

theorem cut_append_separator {separator : Char} {front : List Char} (h : separator ∉ front)
    (back : List Char) :
    cut separator (front ++ separator :: back) = front :: cut separator back := by
  induction front with
  | nil => exact cut_separator separator back
  | cons c rest ih =>
    simp only [List.mem_cons, not_or] at h
    rw [List.cons_append, cut_cons_of_ne (Ne.symm h.1), ih h.2]
    rfl

/-- Cutting at one of the separators first changes nothing. -/
theorem cut_append (separator : Char) (front back : List Char) :
    cut separator (front ++ separator :: back) = cut separator front ++ cut separator back := by
  induction front with
  | nil => exact cut_separator separator back
  | cons c rest ih =>
    rw [List.cons_append]
    by_cases h : c = separator
    · rw [h, cut_separator, cut_separator, ih, List.cons_append]
    · rw [cut_cons_of_ne h, cut_cons_of_ne h, ih, List.tail_append_of_ne_nil (cut_ne_nil _ _)]
      cases hrest : cut separator rest with
      | nil => exact absurd hrest (cut_ne_nil separator rest)
      | cons first others => rfl

/-- Cutting undoes gluing for pieces without the separator. -/
theorem cut_glue {separator : Char} {pieces : List (List Char)} (hne : pieces ≠ [])
    (h : ∀ piece ∈ pieces, separator ∉ piece) : cut separator (glue separator pieces) = pieces := by
  induction pieces with
  | nil => exact absurd rfl hne
  | cons piece rest ih =>
    cases rest with
    | nil => exact cut_of_notMem (h piece (by simp))
    | cons next more =>
      rw [glue, cut_append_separator (h piece (by simp)),
        ih (by simp) fun p hp => h p (List.mem_cons_of_mem _ hp)]

/-- There is no separator in a piece. -/
theorem notMem_of_mem_cut {separator : Char} {chars piece : List Char}
    (h : piece ∈ cut separator chars) : separator ∉ piece := by
  induction chars generalizing piece with
  | nil =>
    rw [cut_nil, List.mem_singleton] at h
    simp [h]
  | cons c rest ih =>
    by_cases hc : c = separator
    · rw [hc, cut_separator] at h
      rcases List.mem_cons.mp h with rfl | hrest
      · exact List.not_mem_nil
      · exact ih hrest
    · obtain ⟨first, others, hrest⟩ := List.exists_cons_of_ne_nil (cut_ne_nil separator rest)
      rw [cut_cons_of_ne hc, hrest, List.headD_cons, List.tail_cons] at h
      rw [hrest] at ih
      rcases List.mem_cons.mp h with rfl | hothers
      · rw [List.mem_cons, not_or]
        exact ⟨Ne.symm hc, ih List.mem_cons_self⟩
      · exact ih (List.mem_cons_of_mem _ hothers)

end SheetCompiler.Text
