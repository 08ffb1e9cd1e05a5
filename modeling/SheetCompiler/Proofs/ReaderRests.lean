import Mathlib.Data.List.Infix
import SheetCompiler.Json.Decode

/-!
# What readers leave

A reader of a JSON text takes bytes from the front and leaves the rest as it is.  For every reader of
words, strings and numbers what is left is an end of the text (`Json.TakesFront`), and so it is for
arrays and objects if it is for their items and members.  Therefore a value of any form is read from
the bytes between where it begins and where it ends (`Json.tree_suffix`).  A value that is skipped
leaves an end of the text as well (`Json.skipValue_suffix`).
-/

namespace SheetCompiler.Json

open Text (Bytes)

variable {α : Type} {bytes rest : Bytes}

/-- A reader takes from the front: what it leaves is an end of the text. -/
def TakesFront (reader : Scanner α) : Prop :=
  ∀ ⦃bytes value rest⦄, reader bytes = .ok (value, rest) → rest <:+ bytes

theorem skipSpace_suffix (bytes : Bytes) : skipSpace bytes <:+ bytes := List.dropWhile_suffix _

theorem suffix_of_skipSpace {b : UInt8} (h : skipSpace bytes = b :: rest) : rest <:+ bytes :=
  (h ▸ List.suffix_cons b rest).trans (skipSpace_suffix bytes)

/-! ## Words and strings -/

theorem takesFront_word (chars : List Char) : TakesFront (word chars) := by
  intro bytes value rest h
  induction chars generalizing bytes with
  | nil =>
    obtain ⟨-, rfl⟩ := Prod.mk.inj (Except.ok.inj h)
    exact List.suffix_rfl
  | cons c chars ih =>
    cases bytes with
    | nil => cases h
    | cons b bytes =>
      rw [word] at h
      split at h
      · exact (ih h).trans (List.suffix_cons b bytes)
      · cases h

theorem takesFront_stringBytes (done : Bytes) : TakesFront (stringBytes done) := by
  intro bytes value rest h
  fun_induction stringBytes done bytes <;> grind [List.suffix_cons]

theorem takesFront_quoted : TakesFront quoted := by
  intro bytes value rest h
  rw [quoted] at h
  cases hread : stringBytes [] bytes with
  | error flaw =>
    rw [hread] at h
    cases h
  | ok read =>
    rw [hread] at h
    dsimp only at h
    split at h
    · obtain ⟨-, rfl⟩ := Prod.mk.inj (Except.ok.inj h)
      exact takesFront_stringBytes [] hread
    · cases h

/-! ## Numbers -/

theorem wholeDigits_suffix (kept dropped : Nat) (bytes : Bytes) :
    (wholeDigits kept dropped bytes).2 <:+ bytes := by
  fun_induction wholeDigits kept dropped bytes <;> grind [List.suffix_cons]

theorem fractionDigits_suffix (kept places : Nat) (full : Bool) (bytes : Bytes) :
    (fractionDigits kept places full bytes).2 <:+ bytes := by
  fun_induction fractionDigits kept places full bytes <;> grind [List.suffix_cons]

theorem exponentDigits_suffix (value : Nat) (bytes : Bytes) :
    (exponentDigits value bytes).2 <:+ bytes := by
  fun_induction exponentDigits value bytes <;> grind [List.suffix_cons]

theorem float_rest {negative : Bool} {value : Option Binary64} {number : Number}
    (h : float negative bytes value = .ok (number, rest)) : rest = bytes := by
  cases value with
  | none => cases h
  | some x => exact (Prod.mk.inj (Except.ok.inj h)).2.symm

theorem wholeNumber_rest {negative : Bool} {kept dropped : Nat} {number : Number}
    (h : wholeNumber negative kept dropped bytes = .ok (number, rest)) : rest = bytes := by
  rw [wholeNumber] at h
  split at h
  · exact float_rest h
  · split at h
    · exact (Prod.mk.inj (Except.ok.inj h)).2.symm
    · split at h
      · exact float_rest h
      · exact (Prod.mk.inj (Except.ok.inj h)).2.symm

theorem takesFront_exponentPart (negative : Bool) (kept : Nat) (exponent : Int) :
    TakesFront (exponentPart negative kept exponent) := by
  intro bytes value rest h
  unfold exponentPart at h
  split at h
  rename_i minus after hsign
  have hafter : after <:+ bytes := by
    cases bytes with
    | nil => exact (Prod.mk.inj hsign).2 ▸ List.suffix_rfl
    | cons b bytes =>
      dsimp only at hsign
      split at hsign
      · exact (Prod.mk.inj hsign).2 ▸ List.suffix_cons b bytes
      · split at hsign
        · exact (Prod.mk.inj hsign).2 ▸ List.suffix_cons b bytes
        · exact (Prod.mk.inj hsign).2 ▸ List.suffix_rfl
  cases after with
  | nil => cases h
  | cons b after =>
    refine List.IsSuffix.trans ?_ hafter
    dsimp only at h
    split at h
    · cases h
    · split at h
      · cases h
      · split at h
        · exact float_rest h ▸ exponentDigits_suffix 0 _
        · exact float_rest h ▸ exponentDigits_suffix 0 _

theorem takesFront_optionalExponent (negative : Bool) (kept : Nat) (exponent : Int) :
    TakesFront (optionalExponent negative kept exponent) := by
  intro bytes value rest h
  cases bytes with
  | nil => exact float_rest h ▸ List.suffix_rfl
  | cons b bytes =>
    rw [optionalExponent] at h
    split at h
    · exact (takesFront_exponentPart _ _ _ h).trans (List.suffix_cons b bytes)
    · exact float_rest h ▸ List.suffix_rfl

theorem takesFront_fractionPart (negative : Bool) (kept dropped : Nat) :
    TakesFront (fractionPart negative kept dropped) := by
  intro bytes value rest h
  cases bytes with
  | nil => cases h
  | cons b bytes =>
    unfold fractionPart at h
    dsimp only at h
    split at h
    · cases h
    · exact (takesFront_optionalExponent _ _ _ h).trans (fractionDigits_suffix kept 0 false _)

theorem takesFront_afterWhole (negative : Bool) (kept dropped : Nat) :
    TakesFront (afterWhole negative kept dropped) := by
  intro bytes value rest h
  cases bytes with
  | nil => exact wholeNumber_rest h ▸ List.suffix_rfl
  | cons b bytes =>
    rw [afterWhole] at h
    split at h
    · exact (takesFront_fractionPart _ _ _ h).trans (List.suffix_cons b bytes)
    · split at h
      · exact (takesFront_exponentPart _ _ _ h).trans (List.suffix_cons b bytes)
      · exact wholeNumber_rest h ▸ List.suffix_rfl

theorem takesFront_unsigned (negative : Bool) : TakesFront (unsigned negative) := by
  intro bytes value rest h
  cases bytes with
  | nil => cases h
  | cons b bytes =>
    unfold unsigned at h
    dsimp only at h
    split at h
    · cases h
    · refine List.IsSuffix.trans ?_ (List.suffix_cons b bytes)
      cases bytes with
      | nil => exact takesFront_afterWhole _ _ _ h
      | cons c bytes =>
        dsimp only at h
        split at h
        · cases h
        · exact takesFront_afterWhole _ _ _ h
    · rename_i d _ _
      exact ((takesFront_afterWhole _ _ _ h).trans (wholeDigits_suffix d 0 bytes)).trans
        (List.suffix_cons b bytes)

theorem takesFront_numeral : TakesFront numeral := by
  intro bytes value rest h
  cases bytes with
  | nil => cases h
  | cons b bytes =>
    rw [numeral] at h
    split at h
    · exact (takesFront_unsigned _ h).trans (List.suffix_cons b bytes)
    · exact takesFront_unsigned _ h

/-! ## Values -/

theorem asTree_eq_ok {make : α → Json} {read : Except Flaw (α × Bytes)} {json : Json}
    (h : asTree make read = .ok (json, rest)) :
    ∃ value, read = .ok (value, rest) ∧ make value = json := by
  cases read with
  | error flaw => cases h
  | ok read =>
    obtain ⟨hjson, rfl⟩ := Prod.mk.inj (Except.ok.inj h)
    exact ⟨read.1, rfl, hjson⟩

theorem TakesFront.asTree {make : α → Json} {reader : Scanner α} {json : Json}
    (hreader : TakesFront reader) (h : asTree make (reader bytes) = .ok (json, rest)) :
    rest <:+ bytes := by
  obtain ⟨value, hread, -⟩ := asTree_eq_ok h
  exact hreader hread

theorem takesFront_single : TakesFront single := by
  intro bytes value rest h
  cases bytes with
  | nil => cases h
  | cons b bytes =>
    rw [single] at h
    split at h
    · exact ((takesFront_word _).asTree h).trans (List.suffix_cons b bytes)
    · split at h
      · exact ((takesFront_word _).asTree h).trans (List.suffix_cons b bytes)
      · split at h
        · exact ((takesFront_word _).asTree h).trans (List.suffix_cons b bytes)
        · split at h
          · exact (takesFront_quoted.asTree h).trans (List.suffix_cons b bytes)
          · split at h
            · exact takesFront_numeral.asTree h
            · cases h

/-! ## Items and members -/

theorem nextItem?_suffix {first : Bool} (h : nextItem? first bytes = .ok (some rest)) :
    rest <:+ bytes := by
  grind [nextItem?, skipSpace_suffix, List.IsSuffix.trans, List.suffix_cons]

theorem endArray_suffix (h : endArray bytes = .ok rest) : rest <:+ bytes := by
  grind [endArray, skipSpace_suffix, List.IsSuffix.trans, List.suffix_cons]

theorem colon_suffix (h : colon bytes = .ok rest) : rest <:+ bytes := by
  grind [colon, skipSpace_suffix, List.IsSuffix.trans, List.suffix_cons]

theorem takesFront_name : TakesFront name := by
  intro bytes value rest h
  cases bytes with
  | nil => cases h
  | cons b bytes =>
    rw [name] at h
    split at h
    · exact (takesFront_quoted h).trans (List.suffix_cons b bytes)
    · cases h

theorem takesFront_nextName? (first : Bool) : TakesFront (nextName? first) := by
  intro bytes value rest h
  have hname := takesFront_name
  rw [TakesFront] at hname
  grind [nextName?, skipSpace_suffix, List.IsSuffix.trans, List.suffix_cons]

theorem takesFront_items {item : Scanner α} (hitem : TakesFront item) (steps : Nat) (first : Bool)
    (done : List α) : TakesFront (items item steps first done) := by
  intro bytes values rest h
  induction steps generalizing first done bytes with
  | zero => cases h
  | succ steps ih =>
    rw [items] at h
    split at h
    · cases h
    · split at h
      · cases h
      · rename_i hend
        exact (Prod.mk.inj (Except.ok.inj h)).2 ▸ endArray_suffix hend
    · rename_i hnext
      split at h
      · cases h
      · rename_i hread
        exact ((ih _ _ h).trans (hitem hread)).trans (nextItem?_suffix hnext)

theorem takesFront_members {member : Scanner α} (hmember : TakesFront member) (steps : Nat)
    (first : Bool) (done : Entries α) : TakesFront (members member steps first done) := by
  intro bytes values rest h
  induction steps generalizing first done bytes with
  | zero => cases h
  | succ steps ih =>
    rw [members] at h
    split at h
    · cases h
    · rename_i hnext
      exact (Prod.mk.inj (Except.ok.inj h)).2 ▸ takesFront_nextName? first hnext
    · rename_i hnext
      refine List.IsSuffix.trans ?_ (takesFront_nextName? first hnext)
      split at h
      · cases h
      · rename_i hcolon
        refine List.IsSuffix.trans ?_ (colon_suffix hcolon)
        split at h
        · cases h
        · rename_i hread
          exact (ih _ _ h).trans (hmember hread)

/-! ## Values of any form -/

/-- What a value of any form leaves is an end of the text behind the space in front of the value. -/
theorem value_suffix {inner : Option (Scanner Json)} (hinner : ∀ reader ∈ inner, TakesFront reader)
    {json : Json} (h : value inner bytes = .ok (json, rest)) : rest <:+ skipSpace bytes := by
  rw [value] at h
  cases hspace : skipSpace bytes with
  | nil =>
    rw [hspace] at h
    cases h
  | cons b after =>
    rw [hspace] at h
    dsimp only at h
    split at h
    · cases inner with
      | none => cases h
      | some item =>
        exact ((takesFront_items (hinner item rfl) _ _ _).asTree h).trans (List.suffix_cons b after)
    · split at h
      · cases inner with
        | none => cases h
        | some member =>
          exact ((takesFront_members (hinner member rfl) _ _ _).asTree h).trans
            (List.suffix_cons b after)
      · exact takesFront_single h

theorem tree_suffix {room : Nat} {json : Json} (h : tree room bytes = .ok (json, rest)) :
    rest <:+ skipSpace bytes := by
  induction room generalizing bytes json rest with
  | zero => exact value_suffix (fun reader hnone => absurd hnone (Option.not_mem_none reader)) h
  | succ room ih =>
    refine value_suffix (fun reader hreader => ?_) h
    obtain rfl := Option.some.inj hreader
    exact fun bytes _ _ hread => (ih hread).trans (skipSpace_suffix bytes)

/-! ## Skipped values -/

theorem skipString_suffix (h : skipString bytes = .ok rest) : rest <:+ bytes := by
  fun_induction skipString bytes <;> grind [List.suffix_cons]

theorem skipDigits_suffix (bytes : Bytes) : skipDigits bytes <:+ bytes := List.dropWhile_suffix _

theorem skipSomeDigits_suffix (h : skipSomeDigits bytes = .ok rest) : rest <:+ bytes := by
  cases bytes with
  | nil => cases h
  | cons b bytes =>
    rw [skipSomeDigits] at h
    split at h
    · exact (Except.ok.inj h ▸ skipDigits_suffix bytes).trans (List.suffix_cons b bytes)
    · cases h

theorem skipExponent_suffix (h : skipExponent bytes = .ok rest) : rest <:+ bytes := by
  unfold skipExponent at h
  split at h
  · exact Except.ok.inj h ▸ List.suffix_rfl
  · rename_i b after
    split at h
    · refine List.IsSuffix.trans ?_ (List.suffix_cons b after)
      split at h
      · cases h
      · rename_i s digits
        split at h
        · exact (skipSomeDigits_suffix h).trans (List.suffix_cons s digits)
        · exact skipSomeDigits_suffix h
    · exact Except.ok.inj h ▸ List.suffix_rfl

theorem skipFraction_suffix (h : skipFraction bytes = .ok rest) : rest <:+ bytes := by
  unfold skipFraction at h
  split at h
  · exact Except.ok.inj h ▸ List.suffix_rfl
  · rename_i b after
    split at h
    · split at h
      · rename_i hdigits
        exact ((skipExponent_suffix h).trans (skipSomeDigits_suffix hdigits)).trans
          (List.suffix_cons b after)
      · cases h
    · exact skipExponent_suffix h

theorem skipUnsigned_suffix (h : skipUnsigned bytes = .ok rest) : rest <:+ bytes := by
  unfold skipUnsigned at h
  split at h
  · cases h
  · rename_i b after
    refine List.IsSuffix.trans ?_ (List.suffix_cons b after)
    split at h
    · cases h
    · split at h
      · exact Except.ok.inj h ▸ List.suffix_rfl
      · split at h
        · cases h
        · exact skipFraction_suffix h
    · exact (skipFraction_suffix h).trans (skipDigits_suffix after)

theorem skipNumber_suffix (h : skipNumber bytes = .ok rest) : rest <:+ bytes := by
  cases bytes with
  | nil => cases h
  | cons b bytes =>
    rw [skipNumber] at h
    split at h
    · exact (skipUnsigned_suffix h).trans (List.suffix_cons b bytes)
    · exact skipUnsigned_suffix h

theorem skipWord_suffix {chars : List Char} (h : skipWord chars bytes = .ok rest) :
    rest <:+ bytes := by
  unfold skipWord at h
  split at h
  · rename_i hword
    exact Except.ok.inj h ▸ takesFront_word chars hword
  · cases h

theorem skipSingle_suffix (h : skipSingle bytes = .ok rest) : rest <:+ bytes := by
  cases bytes with
  | nil => cases h
  | cons b bytes =>
    grind [skipSingle, → skipWord_suffix, → skipString_suffix, → skipNumber_suffix, List.suffix_cons]

theorem skipName_suffix (h : skipName bytes = .ok rest) : rest <:+ bytes := by
  grind [skipName, skipSpace_suffix, → skipString_suffix, List.IsSuffix.trans, List.suffix_cons]

theorem skipEnclosed_suffix {steps : Nat} {around : List Enclosure} {expected : Expected}
    (h : skipEnclosed steps around expected bytes = .ok rest) : rest <:+ bytes := by
  fun_induction skipEnclosed steps around expected bytes <;>
    grind [skipSpace_suffix, → skipSingle_suffix, → skipName_suffix, List.IsSuffix.trans,
      List.suffix_cons]

theorem skipValue_suffix (h : skipValue bytes = .ok rest) : rest <:+ bytes := skipEnclosed_suffix h

end SheetCompiler.Json
