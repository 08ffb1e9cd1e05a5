import Mathlib.Data.List.Infix
import SheetCompiler.Text.Lowercase

/-!
# Parts of texts in lower case

The lower case of a text is the lower case of its parts, each between what stands before it and after
it (`Text.lowerFrom_append`).  What stands there matters for a capital sigma only.  So a part without
one is the same in lower case wherever it stands (`Text.foldsAlike_of_notMem`), and a part with one is
if the part itself decides which of its sigmas end a word (`Text.foldsAlike_of_settled`).

For a part that does not decide this, one letter before it or after it is enough to change it, and then
its lower case by itself is no longer in the text (`Text.foldsAlike_of_infix`).
-/

namespace SheetCompiler.Text

variable {text front back before after : List Char} {c : Char}

/-! ## Between other characters -/

/-- The lower case of a text between what stands before it, last first, and after it. -/
def lowerBetween (before : List Char) : (text after : List Char) → List Char
  | [], _ => []
  | c :: rest, after => lowerChar before c (rest ++ after) ++ lowerBetween (c :: before) rest after

theorem lowerFrom_append (before text after : List Char) :
    lowerFrom before (text ++ after) =
      lowerBetween before text after ++ lowerFrom (text.reverse ++ before) after := by
  induction text generalizing before with
  | nil => rfl
  | cons c rest ih =>
    rw [List.cons_append, lowerFrom, ih, lowerBetween, List.append_assoc, List.reverse_cons,
      List.append_assoc, List.singleton_append]

theorem lowerFrom_eq (before text : List Char) :
    lowerFrom before text = lowerBetween before text [] := by
  have h := lowerFrom_append before text []
  rwa [List.append_nil, lowerFrom, List.append_nil] at h

theorem lowerBetween_append (before text more after : List Char) :
    lowerBetween before (text ++ more) after =
      lowerBetween before text (more ++ after) ++
        lowerBetween (text.reverse ++ before) more after := by
  induction text generalizing before with
  | nil => rfl
  | cons c rest ih =>
    rw [List.cons_append, lowerBetween, ih, lowerBetween, List.append_assoc, List.append_assoc,
      List.reverse_cons, List.append_assoc, List.singleton_append]

theorem toList_lowercase (text : String) :
    (lowercase text).toList = lowerBetween [] text.toList [] := by
  rw [lowercase, String.toList_ofList, lowerFrom_eq]

/-! ## Capital sigmas -/

/-- Whether a capital sigma between other characters ends a word. -/
def endsWord (before after : List Char) : Bool := casedNext before && !casedNext after

theorem lowerChar_sigma (before after : List Char) :
    lowerChar before 'Σ' after = [if endsWord before after then 'ς' else 'σ'] := by
  rw [lowerChar, if_pos rfl, endsWord]
  split <;> rfl

/-- Other characters do not depend on what stands around them. -/
theorem lowerChar_of_ne (h : c ≠ 'Σ') (before after : List Char) :
    lowerChar before c after = lowerChar [] c [] := by
  rw [lowerChar, lowerChar, if_neg h, if_neg h]

theorem length_lowerBetween (before after front back text : List Char) :
    (lowerBetween before text after).length = (lowerBetween front text back).length := by
  induction text generalizing before front with
  | nil => rfl
  | cons c rest ih =>
    have hchar : (lowerChar before c (rest ++ after)).length =
        (lowerChar front c (rest ++ back)).length := by
      by_cases hsigma : c = 'Σ'
      · rw [hsigma, lowerChar_sigma, lowerChar_sigma]
        rfl
      · rw [lowerChar_of_ne hsigma, lowerChar_of_ne hsigma front]
    rw [lowerBetween, lowerBetween, List.length_append, List.length_append, hchar, ih]

theorem lowerBetween_append_sigma (front before after back : List Char) :
    lowerBetween front (before ++ 'Σ' :: after) back =
      lowerBetween front before ('Σ' :: (after ++ back)) ++
        (if endsWord (before.reverse ++ front) (after ++ back) then 'ς' else 'σ') ::
          lowerBetween ('Σ' :: (before.reverse ++ front)) after back := by
  rw [lowerBetween_append, lowerBetween, lowerChar_sigma]
  rfl

/-- Where a text reads alike between other characters, its sigmas end words alike. -/
theorem endsWord_eq_of_lowerBetween_eq {around beyond : List Char}
    (h : lowerBetween front text back = lowerBetween around text beyond)
    (hsplit : text = before ++ 'Σ' :: after) :
    endsWord (before.reverse ++ front) (after ++ back) =
      endsWord (before.reverse ++ around) (after ++ beyond) := by
  rw [hsplit, lowerBetween_append_sigma, lowerBetween_append_sigma] at h
  have hchar := (List.cons.inj (List.append_inj h (length_lowerBetween ..)).2).1
  revert hchar
  cases endsWord (before.reverse ++ front) (after ++ back) <;>
    cases endsWord (before.reverse ++ around) (after ++ beyond) <;> decide

/-! ## Parts that do not depend on what stands around them -/

/-- The text is the same in lower case wherever it stands. -/
def FoldsAlike (text : List Char) : Prop :=
  ∀ before after, lowerBetween before text after = lowerBetween [] text []

/-- Which capital sigmas of the text end a word does not depend on what stands around it. -/
def Settled (text : List Char) : Prop :=
  ∀ before after, text = before ++ 'Σ' :: after → ∀ front back,
    endsWord (before.reverse ++ front) (after ++ back) = endsWord before.reverse after

theorem foldsAlike_of_settled (h : Settled text) : FoldsAlike text := by
  intro front back
  -- along the text, with what has been read of it
  have hparts : ∀ rest read, text = read ++ rest →
      lowerBetween (read.reverse ++ front) rest back = lowerBetween read.reverse rest [] := by
    intro rest
    induction rest with
    | nil => exact fun _ _ => rfl
    | cons c rest ih =>
      intro read hsplit
      have hnext := ih (read ++ [c]) (by rw [hsplit, List.append_assoc, List.singleton_append])
      rw [List.reverse_append, List.reverse_singleton, List.singleton_append,
        List.cons_append] at hnext
      rw [lowerBetween, lowerBetween, hnext, List.append_nil]
      by_cases hsigma : c = 'Σ'
      · rw [hsigma] at hsplit ⊢
        rw [lowerChar_sigma, lowerChar_sigma, h read rest hsplit]
      · rw [lowerChar_of_ne hsigma, lowerChar_of_ne hsigma read.reverse]
  exact hparts text [] rfl

theorem foldsAlike_of_notMem (h : 'Σ' ∉ text) : FoldsAlike text :=
  foldsAlike_of_settled fun _ _ hsplit => absurd (hsplit ▸ List.mem_append_cons_self) h

theorem casedNext_cons (c : Char) (rest : List Char) :
    casedNext (c :: rest) = if isIgnorable c then casedNext rest else isCased c := by
  rw [casedNext, List.find?_cons]
  cases isIgnorable c <;> rfl

theorem casedNext_append (chars more : List Char) :
    casedNext (chars ++ more) =
      if chars.all isIgnorable then casedNext more else casedNext chars := by
  induction chars with
  | nil => rfl
  | cons c rest ih =>
    rw [List.cons_append, casedNext_cons, casedNext_cons, List.all_cons]
    cases isIgnorable c with
    | true => exact ih
    | false => rfl

theorem casedNext_of_all (h : text.all isIgnorable = true) : casedNext text = false := by
  have hnil := casedNext_append text []
  rwa [List.append_nil, if_pos h] at hnil

/-- If one cased letter on either side of a text does not change whether its sigma ends a word, then
nothing does. -/
theorem endsWord_append (hcased : casedNext [c] = true)
    (hbefore : endsWord (before ++ [c]) after = endsWord before after)
    (hafter : endsWord before (after ++ [c]) = endsWord before after) (front back : List Char) :
    endsWord (before ++ front) (after ++ back) = endsWord before after := by
  simp only [endsWord, casedNext_append] at hbefore hafter ⊢
  cases hall : before.all isIgnorable <;> cases hall' : after.all isIgnorable <;>
    simp_all [casedNext_of_all]

/-! ## Parts that do -/

/-- A text is not its own continuation by a letter, up to a place with another letter. -/
theorem append_cons_ne_cons_append {α : Type} {letter other : α} (hne : other ≠ letter)
    (front back more : List α) : front ++ other :: back ≠ letter :: (front ++ more) := by
  induction front with
  | nil =>
    intro h
    exact hne (List.cons.inj h).1
  | cons first front ih =>
    intro h
    obtain ⟨rfl, hrest⟩ := List.cons.inj h
    exact ih hrest

/-- A part of a text that is longer by one is its beginning or its end. -/
theorem infix_cases_of_length {α : Type} {part whole : List α} (h : part <:+: whole)
    (hlength : whole.length = part.length + 1) :
    (∃ last, whole = part ++ [last]) ∨ ∃ first, whole = first :: part := by
  obtain ⟨front, back, rfl⟩ := h
  simp only [List.length_append] at hlength
  cases front with
  | nil =>
    obtain ⟨last, rfl⟩ := List.length_eq_one_iff.mp (show back.length = 1 by simp at hlength; omega)
    exact Or.inl ⟨last, rfl⟩
  | cons first front =>
    rw [List.length_cons] at hlength
    obtain rfl := List.length_eq_zero_iff.mp (show front.length = 0 by omega)
    obtain rfl := List.length_eq_zero_iff.mp (show back.length = 0 by simp at hlength; omega)
    exact Or.inr ⟨first, List.append_nil _⟩

/-- The letter that is put before a text or after it. -/
def probe : Char := 'a'

theorem casedNext_probe : casedNext [probe] = true := by
  decide +kernel

theorem sigma_ne_probe (before after : List Char) :
    (if endsWord before after then 'ς' else 'σ') ≠ probe := by
  split <;> decide

theorem lowerBetween_probe (before after : List Char) :
    lowerBetween before [probe] after = [probe] := by
  rw [lowerBetween, lowerChar_of_ne (by decide), lowerBetween, List.append_nil]
  decide

/-- With a letter before it, a text either reads as it does by itself or is no part any more. -/
theorem lowerBetween_probe_front (h : lowerBetween [] text [] <:+:
      lowerBetween [] (probe :: text) []) :
    lowerBetween [probe] text [] = lowerBetween [] text [] := by
  have hwhole : lowerBetween [] (probe :: text) [] = probe :: lowerBetween [probe] text [] := by
    rw [← List.singleton_append, lowerBetween_append, lowerBetween_probe]
    rfl
  rw [hwhole] at h
  rcases infix_cases_of_length h (by rw [List.length_cons, length_lowerBetween]) with
    ⟨last, hlast⟩ | ⟨first, hfirst⟩
  · by_cases hmem : 'Σ' ∈ text
    · obtain ⟨before, after, rfl, hbefore⟩ := List.eq_append_cons_of_mem hmem
      have halike := foldsAlike_of_notMem hbefore
      rw [lowerBetween_append_sigma, lowerBetween_append_sigma, halike [probe],
        halike [] ('Σ' :: _), List.append_assoc, List.cons_append] at hlast
      exact absurd hlast.symm (append_cons_ne_cons_append (sigma_ne_probe _ _) _ _ _)
    · rw [foldsAlike_of_notMem hmem]
  · exact (List.cons.inj hfirst).2

theorem lowerBetween_probe_back (h : lowerBetween [] text [] <:+:
      lowerBetween [] (text ++ [probe]) []) :
    lowerBetween [] text [probe] = lowerBetween [] text [] := by
  rw [lowerBetween_append, lowerBetween_probe, List.append_nil] at h
  rcases infix_cases_of_length h
    (by rw [List.length_append, length_lowerBetween [] [] [] [probe]]; rfl) with
    ⟨last, hlast⟩ | ⟨first, hfirst⟩
  · exact (List.append_inj hlast (length_lowerBetween ..)).1
  · by_cases hmem : 'Σ' ∈ text
    · obtain ⟨after, before, hsplit, hafter⟩ :=
        List.eq_append_cons_of_mem (List.mem_reverse.mpr hmem)
      obtain rfl : text = before.reverse ++ 'Σ' :: after.reverse := by
        rw [← List.reverse_reverse text, hsplit, List.reverse_append, List.reverse_cons,
          List.append_assoc, List.singleton_append]
      have halike := foldsAlike_of_notMem fun hmem => hafter (List.mem_reverse.mp hmem)
      -- read from the end, the letter comes first here too
      have hback := congrArg List.reverse hfirst
      rw [lowerBetween_append_sigma, lowerBetween_append_sigma, halike ('Σ' :: _) [probe],
        halike ('Σ' :: _) [], List.reverse_concat, List.reverse_cons, List.reverse_append,
        List.reverse_append, List.reverse_cons, List.reverse_cons, List.append_assoc, List.append_assoc,
        List.append_assoc, List.singleton_append] at hback
      exact absurd hback.symm (append_cons_ne_cons_append (sigma_ne_probe _ _) _ _ _)
    · rw [foldsAlike_of_notMem hmem]

/-- A text is the same in lower case wherever it stands, if with a letter before it and with one after
it what it reads by itself is still a part of the whole. -/
theorem foldsAlike_of_infix
    (hfront : lowerBetween [] text [] <:+: lowerBetween [] (probe :: text) [])
    (hback : lowerBetween [] text [] <:+: lowerBetween [] (text ++ [probe]) []) :
    FoldsAlike text := by
  refine foldsAlike_of_settled fun before after hsplit => ?_
  have hbefore := endsWord_eq_of_lowerBetween_eq (lowerBetween_probe_front hfront) hsplit
  have hafter := endsWord_eq_of_lowerBetween_eq (lowerBetween_probe_back hback) hsplit
  rw [List.append_nil, List.append_nil] at hbefore hafter
  exact endsWord_append casedNext_probe hbefore hafter

end SheetCompiler.Text
