import Mathlib.Data.List.Basic
import SheetCompiler.Proofs.DecodedText
import SheetCompiler.Proofs.ReaderRests

/-!
# Integers in JSON texts

An integer is written as digits behind an optional minus sign.  A number that is read from such a text,
and from nothing behind it, is the value of the digits if that fits into 64 bits: below `2 ^ 64` without
a sign, and from one to `2 ^ 63` behind a minus sign.  It is then written with the same digits again.
Any other integer is read as a floating-point number, and the text of that has a point or an exponent
(`Json.Number.exists_mem_floatChars`).  So the written form is the same text again exactly when the
integer fits (`Json.IntegerLiteral.chars_eq_iff`).
-/

namespace SheetCompiler.Json

open Text (Bytes)
open Text.Utf8 (encode encode_append encode_cons encodeChar_of_lt)

variable {c : Char} {digits : List Char} {negative : Bool} {n d kept dropped : Nat}
  {number : Number} {rest : Bytes}

/-! ## Digits -/

theorem exists_digitChar (h : c.isDigit = true) : ∃ d < 10, d.digitChar = c := by
  have hbounds : 48 ≤ c.toNat ∧ c.toNat ≤ 57 := by
    simp only [Char.isDigit, Bool.and_eq_true, decide_eq_true_eq, ge_iff_le,
      UInt32.le_iff_toNat_le] at h
    exact h
  refine ⟨c.toNat - 48, by omega, Char.toNat_inj.mp ?_⟩
  rw [Nat.toNat_digitChar_of_lt_ten (by omega)]
  omega

theorem encode_digitChar (hd : d < 10) (more : List Char) :
    encode (d.digitChar :: more) = byte d.digitChar :: encode more := by
  have hlt : d.digitChar.toNat < 128 := by
    rw [Nat.toNat_digitChar_of_lt_ten hd]
    omega
  rw [encode_cons, encodeChar_of_lt hlt]
  rfl

theorem digit?_digitChar : ∀ d < 10, digit? (byte d.digitChar) = some d := by
  decide

/-- The digits of a number that is not zero, and further digits. -/
theorem toDigits_append (h : ∀ c ∈ digits, c.isDigit = true) (hn : 0 < n) :
    Nat.toDigits 10 n ++ digits = Nat.toDigits 10 (Nat.ofDigitChars 10 digits n) := by
  induction digits generalizing n with
  | nil => rw [List.append_nil, Nat.ofDigitChars_nil]
  | cons c more ih =>
    obtain ⟨hc, hmore⟩ := List.forall_mem_cons.mp h
    obtain ⟨d, hd, rfl⟩ := exists_digitChar hc
    have hdigit := Nat.toDigits_append_toDigits (b := 10) (by decide) hn hd
    rw [Nat.toDigits_of_lt_base hd] at hdigit
    rw [Nat.ofDigitChars_cons_digitChar_of_lt_ten hd, ← ih hmore (by omega), ← hdigit,
      List.append_assoc, List.singleton_append]

/-! ## Kept digits -/

/-- What is kept and dropped of the digits of a number: all is kept if the number fits into 64 bits, and
some is dropped if not. -/
def Keeps (n kept dropped : Nat) : Prop :=
  if n ≤ wordMax then kept = n ∧ dropped = 0 else dropped ≠ 0

theorem keeps_of_le (h : n ≤ wordMax) : Keeps n n 0 := by
  rw [Keeps, if_pos h]
  exact ⟨rfl, rfl⟩

/-- A further digit. -/
theorem exists_wholeDigits_digitChar (h : Keeps n kept dropped) (hd : d < 10) (bytes : Bytes) :
    ∃ kept' dropped', Keeps (10 * n + d) kept' dropped' ∧
      wholeDigits kept dropped (byte d.digitChar :: bytes) = wholeDigits kept' dropped' bytes := by
  rw [wholeDigits, digit?_digitChar d hd]
  unfold Keeps at h ⊢
  by_cases hroom : dropped = 0 ∧ kept * 10 + d ≤ wordMax
  · refine ⟨kept * 10 + d, 0, ?_, if_pos hroom⟩
    split <;> split at h <;> omega
  · refine ⟨kept, dropped + 1, ?_, if_neg hroom⟩
    split <;> split at h <;> omega

theorem exists_wholeDigits (hdigits : ∀ c ∈ digits, c.isDigit = true)
    (h : Keeps n kept dropped) (rest : Bytes) :
    ∃ kept' dropped', Keeps (Nat.ofDigitChars 10 digits n) kept' dropped' ∧
      wholeDigits kept dropped (encode digits ++ rest) = wholeDigits kept' dropped' rest := by
  induction digits generalizing n kept dropped with
  | nil => exact ⟨kept, dropped, h, rfl⟩
  | cons c more ih =>
    obtain ⟨hc, hmore⟩ := List.forall_mem_cons.mp hdigits
    obtain ⟨d, hd, rfl⟩ := exists_digitChar hc
    obtain ⟨kept', dropped', hkeeps, hstep⟩ :=
      exists_wholeDigits_digitChar h hd (encode more ++ rest)
    rw [Nat.ofDigitChars_cons_digitChar_of_lt_ten hd, encode_digitChar hd, List.cons_append, hstep]
    exact ih hmore hkeeps

/-- Where no digit is taken, nothing is. -/
theorem wholeDigits_of_rest (h : rest <:+ (wholeDigits kept dropped rest).2) :
    wholeDigits kept dropped rest = ((kept, dropped), rest) := by
  cases rest with
  | nil => rfl
  | cons b rest =>
    rw [wholeDigits] at h ⊢
    cases hdigit : digit? b with
    | none => rfl
    | some d =>
      rw [hdigit] at h
      dsimp only at h
      have hshort : ∀ kept dropped, ¬ (b :: rest) <:+ (wholeDigits kept dropped rest).2 :=
        fun kept dropped hsuffix => absurd
          (hsuffix.trans (wholeDigits_suffix kept dropped rest)).length_le (by simp)
      split at h
      · exact absurd h (hshort _ _)
      · exact absurd h (hshort _ _)

/-! ## Numbers without a fraction or an exponent -/

theorem wholeNumber_of_afterWhole
    (h : afterWhole negative kept dropped rest = .ok (number, rest)) :
    wholeNumber negative kept dropped rest = .ok (number, rest) := by
  cases rest with
  | nil => exact h
  | cons b rest =>
    have hshort : ¬ (b :: rest) <:+ rest := fun hsuffix => absurd hsuffix.length_le (by simp)
    rw [afterWhole] at h
    split at h
    · exact absurd (takesFront_fractionPart _ _ _ h) hshort
    · split at h
      · exact absurd (takesFront_exponentPart _ _ _ h) hshort
      · exact h

/-- Behind a leading zero stands no digit. -/
theorem afterWhole_of_zero {bytes : Bytes}
    (h : unsigned negative (byte '0' :: bytes) = .ok (number, rest)) :
    (∀ b ∈ bytes.head?, digit? b = none) ∧ afterWhole negative 0 0 bytes = .ok (number, rest) := by
  unfold unsigned at h
  dsimp only at h
  split at h
  · cases h
  · cases bytes with
    | nil => exact ⟨fun b hb => absurd hb (Option.not_mem_none b), h⟩
    | cons b bytes =>
      dsimp only at h
      split at h
      · cases h
      · rename_i hdigit
        refine ⟨fun first hfirst => ?_, h⟩
        rw [← Option.some.inj hfirst]
        exact Option.not_isSome_iff_eq_none.mp hdigit
  · rename_i hne hzero
    exact absurd (Option.some.inj hzero).symm hne

theorem unsigned_digitChar (hd : d + 1 < 10) (bytes : Bytes) :
    unsigned negative (byte (d + 1).digitChar :: bytes) =
      afterWhole negative (wholeDigits (d + 1) 0 bytes).1.1 (wholeDigits (d + 1) 0 bytes).1.2
        (wholeDigits (d + 1) 0 bytes).2 := by
  unfold unsigned
  dsimp only
  rw [digit?_digitChar _ hd]
  rfl

/-- Digits that are read as a number have no leading zero, and what is kept of them is the number. -/
theorem exists_wholeNumber (hdigits : ∀ c ∈ digits, c.isDigit = true) (hnil : digits ≠ [])
    (h : unsigned negative (encode digits ++ rest) = .ok (number, rest)) :
    Nat.toDigits 10 (Nat.ofDigitChars 10 digits 0) = digits ∧
      ∃ kept dropped, Keeps (Nat.ofDigitChars 10 digits 0) kept dropped ∧
        wholeNumber negative kept dropped rest = .ok (number, rest) := by
  obtain ⟨c, more, rfl⟩ := List.exists_cons_of_ne_nil hnil
  obtain ⟨hc, hmore⟩ := List.forall_mem_cons.mp hdigits
  obtain ⟨d, hd, rfl⟩ := exists_digitChar hc
  rw [encode_digitChar hd, List.cons_append] at h
  rw [Nat.ofDigitChars_cons_digitChar_of_lt_ten hd, Nat.mul_zero, Nat.zero_add]
  cases d with
  | zero =>
    obtain ⟨hnext, hafter⟩ := afterWhole_of_zero h
    cases more with
    | nil =>
      exact ⟨rfl, 0, 0, keeps_of_le (Nat.zero_le _), wholeNumber_of_afterWhole hafter⟩
    | cons c more =>
      obtain ⟨e, he, rfl⟩ := exists_digitChar (List.forall_mem_cons.mp hmore).1
      rw [encode_digitChar he] at hnext
      have hnone := hnext _ rfl
      rw [digit?_digitChar e he] at hnone
      cases hnone
  | succ d =>
    have hfits : d + 1 ≤ wordMax := Nat.le_trans (Nat.le_of_lt hd) (by decide)
    obtain ⟨kept, dropped, hkeeps, hwhole⟩ := exists_wholeDigits hmore (keeps_of_le hfits) rest
    rw [unsigned_digitChar hd, hwhole] at h
    rw [wholeDigits_of_rest (takesFront_afterWhole _ _ _ h)] at h
    refine ⟨?_, kept, dropped, hkeeps, wholeNumber_of_afterWhole h⟩
    rw [← toDigits_append hmore (Nat.succ_pos d), Nat.toDigits_of_lt_base hd,
      List.singleton_append]

theorem exists_float {bytes : Bytes} {value : Option Binary64}
    (h : float negative bytes value = .ok (number, rest)) : ∃ x, number = .float x := by
  cases value with
  | none => cases h
  | some x => exact ⟨_, (Prod.mk.inj (Except.ok.inj h)).1.symm⟩

/-! ## Written numbers -/

namespace Number

theorem mem_positional (digits : List Char) (first : Int) : '.' ∈ positional digits first := by
  cases first with
  | negSucc n => exact List.mem_cons_of_mem _ List.mem_cons_self
  | ofNat n =>
    rw [positional]
    split
    · exact List.mem_append_right _ List.mem_cons_self
    · exact List.mem_append_right _ List.mem_cons_self

theorem exists_mem_scientific (hnil : digits ≠ []) (first : Int) :
    ∃ c ∈ scientific digits first, c = '.' ∨ c = 'e' := by
  match digits with
  | [] => exact absurd rfl hnil
  | [digit] =>
    refine ⟨'e', List.mem_cons_of_mem _ ?_, Or.inr rfl⟩
    cases first <;> exact List.mem_cons_self
  | digit :: next :: more =>
    exact ⟨'.', List.mem_cons_of_mem _ List.mem_cons_self, Or.inl rfl⟩

/-- The text of a floating-point number has a point or an exponent. -/
theorem exists_mem_floatChars (x : Binary64) : ∃ c ∈ floatChars x, c = '.' ∨ c = 'e' := by
  have hmagnitude : ∀ first, ∃ c ∈ (if leastPositional ≤ first ∧ first ≤ greatestPositional then
      positional (Nat.toDigits 10 (Decimal.shortest x).digits) first
      else scientific (Nat.toDigits 10 (Decimal.shortest x).digits) first), c = '.' ∨ c = 'e' := by
    intro first
    split
    · exact ⟨'.', mem_positional _ _, Or.inl rfl⟩
    · exact exists_mem_scientific Nat.toDigits_ne_nil _
  rw [floatChars]
  split
  · obtain ⟨c, hc, hmark⟩ := hmagnitude _
    exact ⟨c, List.mem_cons_of_mem _ hc, hmark⟩
  · exact hmagnitude _

end Number

/-! ## Values that are numbers -/

/-- A byte that opens a number and no other value. -/
def OpensNumber (b : UInt8) : Prop :=
  isSpace b = false ∧ b ≠ byte '[' ∧ b ≠ byte '{' ∧ b ≠ byte 'n' ∧ b ≠ byte 't' ∧ b ≠ byte 'f' ∧
    b ≠ byte '"' ∧ startsNumber b = true

instance : DecidablePred OpensNumber := fun _ => inferInstanceAs (Decidable (_ ∧ _))

theorem opensNumber_digitChar : ∀ d < 10, OpensNumber (byte d.digitChar) := by
  decide

/-- A value of any form that begins as a number is one. -/
theorem OpensNumber.tree {b : UInt8} (h : OpensNumber b) (room : Nat) (bytes : Bytes) :
    tree room (b :: bytes) = asTree .number (numeral (b :: bytes)) := by
  obtain ⟨hspace, harray, hobject, hnull, htrue, hfalse, hquote, hnumber⟩ := h
  obtain ⟨inner, hinner⟩ := exists_tree_eq room
  rw [hinner, value, skipSpace_cons hspace]
  dsimp only
  rw [if_neg harray, if_neg hobject, single, if_neg hnull, if_neg htrue, if_neg hfalse,
    if_neg hquote, if_pos hnumber]

/-! ## Integers -/

/-- The written form of an integer: digits, perhaps behind a minus sign. -/
structure IntegerLiteral where
  negative : Bool
  digits : List Char
  ne_nil : digits ≠ []
  isDigit : ∀ c ∈ digits, c.isDigit = true

namespace IntegerLiteral

variable (literal : IntegerLiteral)

/-- The text of the integer. -/
def chars : List Char :=
  if literal.negative then '-' :: literal.digits else literal.digits

/-- The value of the digits. -/
def magnitude : Nat := Nat.ofDigitChars 10 literal.digits 0

/-- The integer is a number of 64 bits, with or without a sign.  Zero has no minus sign. -/
def Fits : Prop :=
  if literal.negative then 0 < literal.magnitude ∧ literal.magnitude ≤ UInt64.size / 2
  else literal.magnitude < UInt64.size

instance : Decidable literal.Fits := inferInstanceAs (Decidable (ite _ _ _))

/-- The number that is read for an integer that fits. -/
def whole : Number :=
  if literal.negative then .negative literal.magnitude else .natural literal.magnitude

/-- The text of an integer has no point and no exponent. -/
theorem notMem_chars (h : c = '.' ∨ c = 'e') : c ∉ literal.chars := by
  have hdigits : c ∉ literal.digits := by
    intro hmem
    have hdigit := literal.isDigit c hmem
    rcases h with rfl | rfl <;> cases hdigit
  rw [chars]
  split
  · rcases h with rfl | rfl <;> exact List.not_mem_cons_of_ne_of_not_mem (by decide) hdigits
  · exact hdigits

/-- An integer that is read as a number is read digit by digit. -/
theorem exists_wholeNumber (h : numeral (encode literal.chars ++ rest) = .ok (number, rest)) :
    Nat.toDigits 10 literal.magnitude = literal.digits ∧
      ∃ kept dropped, Keeps literal.magnitude kept dropped ∧
        wholeNumber literal.negative kept dropped rest = .ok (number, rest) := by
  obtain ⟨negative, digits, hnil, hdigits⟩ := literal
  refine Json.exists_wholeNumber hdigits hnil ?_
  cases negative with
  | true => exact h
  | false =>
    obtain ⟨c, more, rfl⟩ := List.exists_cons_of_ne_nil hnil
    obtain ⟨d, hd, rfl⟩ := exists_digitChar (List.forall_mem_cons.mp hdigits).1
    have hminus : ∀ d < 10, byte d.digitChar ≠ byte '-' := by decide
    change numeral (encode (d.digitChar :: more) ++ rest) = _ at h
    rw [encode_digitChar hd, List.cons_append, numeral, if_neg (hminus d hd)] at h
    rw [encode_digitChar hd, List.cons_append]
    exact h

/-- An integer that fits is read as its value, and any other as a floating-point number. -/
theorem number_cases (h : numeral (encode literal.chars ++ rest) = .ok (number, rest)) :
    (literal.Fits → number = literal.whole) ∧ (¬ literal.Fits → ∃ x, number = .float x) := by
  obtain ⟨-, kept, dropped, hkeeps, hwhole⟩ := literal.exists_wholeNumber h
  have hsize : wordMax = UInt64.size - 1 := rfl
  rw [Keeps] at hkeeps
  rw [wholeNumber] at hwhole
  rw [Fits, whole]
  split at hkeeps
  · obtain ⟨rfl, rfl⟩ := hkeeps
    rw [if_neg (by simp)] at hwhole
    cases hsign : literal.negative with
    | false =>
      rw [hsign] at hwhole
      have hlt : literal.magnitude < UInt64.size := by
        have hpos : 0 < UInt64.size := by decide
        omega
      exact ⟨fun _ => (Prod.mk.inj (Except.ok.inj hwhole)).1.symm, fun hnot => absurd hlt hnot⟩
    | true =>
      rw [hsign, if_neg (by simp)] at hwhole
      split at hwhole
      · rename_i hrange
        refine ⟨fun hfits => ?_, fun _ => exists_float hwhole⟩
        change 0 < literal.magnitude ∧ literal.magnitude ≤ UInt64.size / 2 at hfits
        omega
      · rename_i hrange
        refine ⟨fun _ => (Prod.mk.inj (Except.ok.inj hwhole)).1.symm, fun hnot => ?_⟩
        change ¬ (0 < literal.magnitude ∧ literal.magnitude ≤ UInt64.size / 2) at hnot
        omega
  · rename_i hlarge
    rw [if_pos hkeeps] at hwhole
    refine ⟨fun hfits => ?_, fun _ => exists_float hwhole⟩
    split at hfits <;> omega

/-- What an integer is written as again is the same text exactly if it fits. -/
theorem chars_eq_iff (h : numeral (encode literal.chars ++ rest) = .ok (number, rest)) :
    number.chars = literal.chars ↔ literal.Fits := by
  obtain ⟨hfits, hfloat⟩ := literal.number_cases h
  obtain ⟨hdigits, -⟩ := literal.exists_wholeNumber h
  constructor
  · intro hchars
    by_contra hnot
    obtain ⟨x, rfl⟩ := hfloat hnot
    obtain ⟨c, hc, hmark⟩ := Number.exists_mem_floatChars x
    exact literal.notMem_chars hmark (hchars ▸ hc)
  · intro hyes
    rw [hfits hyes, whole, chars, ← hdigits]
    split <;> rfl

/-- An integer opens a number. -/
theorem exists_front : ∃ b bytes, encode literal.chars = b :: bytes ∧ OpensNumber b := by
  rw [chars]
  split
  · exact ⟨byte '-', encode literal.digits, rfl, by decide⟩
  · obtain ⟨c, more, hdigits⟩ := List.exists_cons_of_ne_nil literal.ne_nil
    have hc := literal.isDigit
    rw [hdigits] at hc ⊢
    obtain ⟨d, hd, rfl⟩ := exists_digitChar (List.forall_mem_cons.mp hc).1
    exact ⟨_, _, encode_digitChar hd more, opensNumber_digitChar d hd⟩

/-- A value of any form that is read from an integer is read as a number. -/
theorem exists_numeral {room : Nat} {json : Json}
    (h : tree room (encode literal.chars ++ rest) = .ok (json, rest)) :
    ∃ number, numeral (encode literal.chars ++ rest) = .ok (number, rest) ∧
      json = .number number := by
  obtain ⟨b, bytes, hbytes, hfront⟩ := literal.exists_front
  rw [hbytes, List.cons_append] at h ⊢
  rw [hfront.tree] at h
  obtain ⟨number, hnumeral, hjson⟩ := asTree_eq_ok h
  exact ⟨number, hnumeral, hjson.symm⟩

end IntegerLiteral

end SheetCompiler.Json
