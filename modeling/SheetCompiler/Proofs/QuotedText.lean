import SheetCompiler.Json.Layout
import SheetCompiler.Json.Scan
import SheetCompiler.Proofs.TextBytes

/-!
# Texts in quotes

Writing escapes a character in one of three ways, and each is undone by reading: as a letter behind a
backslash, as a code point behind `\u`, and as it is.  The scanner is followed through these ways
(`stringBytes_escape`, `stringBytes_unit`, `stringBytes_append`), so it gives back the bytes of each
character (`stringBytes_encode_escape`) and of the whole text (`quoted_encode`).

Since reading stops at the closing quote, a text in quotes can be told from whatever follows it
(`quote_append_inj`).
-/

namespace SheetCompiler.Json

open Text (Bytes)
open Text.Utf8 (encode encodeChar)

/-! ## The scanner at one character -/

theorem stringBytes_quote (done rest : Bytes) :
    stringBytes done (byte '"' :: rest) = .ok (done.reverse, rest) := by
  rw [stringBytes.eq_def]
  exact if_pos rfl

theorem stringBytes_plain {b : UInt8} (hquote : b ≠ byte '"') (hbackslash : b ≠ byte '\\')
    (h : 32 ≤ b) (done rest : Bytes) :
    stringBytes done (b :: rest) = stringBytes (b :: done) rest := by
  rw [stringBytes.eq_def]
  dsimp only
  rw [if_neg hquote, if_neg hbackslash, if_neg (UInt8.not_lt.mpr h)]

theorem stringBytes_escape {e plain : UInt8} (h : plainEscape? e = some plain)
    (done rest : Bytes) :
    stringBytes done (byte '\\' :: e :: rest) = stringBytes (plain :: done) rest := by
  rw [stringBytes.eq_def]
  dsimp only
  rw [if_neg (by decide), if_pos rfl]
  simp only [h]

theorem stringBytes_unit {a b c d : UInt8} {unit : Nat} (h : hexUnit? a b c d = some unit)
    (hunit : unit < 55296) (done rest : Bytes) :
    stringBytes done (byte '\\' :: byte 'u' :: a :: b :: c :: d :: rest) =
      stringBytes (reversedBytes unit ++ done) rest := by
  have hlow : isLowSurrogate unit = false := by
    simp only [isLowSurrogate, Bool.and_eq_false_iff, decide_eq_false_iff_not]
    omega
  have hhigh : isHighSurrogate unit = false := by
    simp only [isHighSurrogate, Bool.and_eq_false_iff, decide_eq_false_iff_not]
    omega
  have hu : plainEscape? (byte 'u') = none := by decide
  rw [stringBytes.eq_def]
  dsimp only
  rw [if_neg (by decide), if_pos rfl]
  simp only [hu, h, ne_eq, not_true_eq_false, if_false, hlow, hhigh, Bool.false_eq_true]

/-- Bytes that are neither quotes nor backslashes nor controls are kept. -/
theorem stringBytes_append {bytes : Bytes}
    (h : ∀ b ∈ bytes, b ≠ byte '"' ∧ b ≠ byte '\\' ∧ 32 ≤ b) (done rest : Bytes) :
    stringBytes done (bytes ++ rest) = stringBytes (bytes.reverse ++ done) rest := by
  induction bytes generalizing done with
  | nil => rfl
  | cons b bytes ih =>
    obtain ⟨⟨hquote, hbackslash, hlow⟩, hrest⟩ := List.forall_mem_cons.mp h
    rw [List.cons_append, stringBytes_plain hquote hbackslash hlow, ih hrest, List.reverse_cons,
      List.append_assoc, List.singleton_append]

theorem byte_ne_of_toNat {b : UInt8} {c : Char} (hc : c.toNat < 256) (h : b.toNat ≠ c.toNat) :
    b ≠ byte c := by
  rintro rfl
  rw [byte, Text.Utf8.toNat_toUInt8 hc] at h
  exact h rfl

/-- A character that stands for itself is kept. -/
theorem stringBytes_encodeChar {c : Char} (hquote : c ≠ '"') (hbackslash : c ≠ '\\')
    (h : 32 ≤ c.toNat) (done rest : Bytes) :
    stringBytes done (encodeChar c ++ rest) =
      stringBytes ((encodeChar c).reverse ++ done) rest := by
  refine stringBytes_append (fun b hb => ?_) done rest
  have hbyte : b.toNat ≠ '"'.toNat ∧ b.toNat ≠ '\\'.toNat ∧ 32 ≤ b.toNat := by
    have hquote' : c.toNat ≠ '"'.toNat := fun he => hquote (Char.toNat_inj.mp he)
    have hbackslash' : c.toNat ≠ '\\'.toNat := fun he => hbackslash (Char.toNat_inj.mp he)
    by_cases hascii : c.toNat < 128
    · rw [Text.Utf8.encodeChar_of_lt hascii, List.mem_singleton] at hb
      rw [hb, Text.Utf8.toNat_toUInt8 (by omega)]
      exact ⟨hquote', hbackslash', h⟩
    · have hle := Text.Utf8.le_toNat_of_mem_encodeChar (Nat.le_of_not_lt hascii) hb
      have hq : '"'.toNat < 128 := by decide
      have hs : '\\'.toNat < 128 := by decide
      omega
  exact ⟨byte_ne_of_toNat (by decide) hbyte.1, byte_ne_of_toNat (by decide) hbyte.2.1,
    UInt8.le_iff_toNat_le.mpr hbyte.2.2⟩

/-! ## Escapes -/

theorem hexValue?_hexDigit : ∀ n < 16, hexValue? (byte (hexDigit n)) = some n := by decide

theorem toNat_hexDigit_lt : ∀ n < 16, (hexDigit n).toNat < 128 := by decide

/-- Four digits read as a number below 32. -/
theorem hexUnit?_hexDigit {n : Nat} (h : n < 32) :
    hexUnit? (byte '0') (byte '0') (byte (hexDigit (n / 16))) (byte (hexDigit (n % 16))) =
      some n := by
  have hzero : hexValue? (byte '0') = some 0 := by decide
  simp only [hexUnit?, hzero, hexValue?_hexDigit (n / 16) (by omega),
    hexValue?_hexDigit (n % 16) (by omega), Option.bind_eq_bind, Option.bind_some,
    Option.pure_def, Option.some.injEq]
  omega

/-- A control character that has no escape of one letter is written as its code point. -/
theorem stringBytes_encode_unit {c : Char} (h : c.toNat < 32) (done rest : Bytes) :
    stringBytes done (encode ['\\', 'u', '0', '0', hexDigit (c.toNat / 16),
        hexDigit (c.toNat % 16)] ++ rest) =
      stringBytes ((encodeChar c).reverse ++ done) rest := by
  have hbytes : encode ['\\', 'u', '0', '0', hexDigit (c.toNat / 16), hexDigit (c.toNat % 16)] =
      [byte '\\', byte 'u', byte '0', byte '0', byte (hexDigit (c.toNat / 16)),
        byte (hexDigit (c.toNat % 16))] := by
    simp only [Text.Utf8.encode_cons,
      Text.Utf8.encodeChar_of_lt (toNat_hexDigit_lt (c.toNat / 16) (by omega)),
      Text.Utf8.encodeChar_of_lt (toNat_hexDigit_lt (c.toNat % 16) (by omega))]
    rfl
  simp only [hbytes, List.cons_append, List.nil_append]
  rw [stringBytes_unit (hexUnit?_hexDigit h) (by omega), reversedBytes, Char.ofNat_toNat]

/-- Reading an escaped character gives its bytes. -/
theorem stringBytes_encode_escape (c : Char) (done rest : Bytes) :
    stringBytes done (encode (escape c) ++ rest) =
      stringBytes ((encodeChar c).reverse ++ done) rest := by
  have hplain : ∀ {e : Char} {plain : UInt8}, escape c = ['\\', e] → e.toNat < 128 →
      plainEscape? (byte e) = some plain → encodeChar c = [plain] →
      stringBytes done (encode (escape c) ++ rest) =
        stringBytes ((encodeChar c).reverse ++ done) rest := by
    intro e plain hescape he hread hchar
    have hbytes : encode (escape c) = [byte '\\', byte e] := by
      rw [hescape, Text.Utf8.encode_cons, Text.Utf8.encode_cons, Text.Utf8.encodeChar_of_lt he]
      rfl
    rw [hbytes, hchar]
    exact stringBytes_escape hread done rest
  by_cases hquote : c = '"'
  · subst hquote
    exact hplain (e := '"') rfl (by decide) (by decide) rfl
  by_cases hbackslash : c = '\\'
  · subst hbackslash
    exact hplain (e := '\\') rfl (by decide) (by decide) rfl
  by_cases hlow : c.toNat < 32
  · by_cases hb : c = Char.ofNat 0x8
    · subst hb
      exact hplain (e := 'b') rfl (by decide) (by decide) rfl
    by_cases hf : c = Char.ofNat 0xc
    · subst hf
      exact hplain (e := 'f') rfl (by decide) (by decide) rfl
    by_cases hn : c = '\n'
    · subst hn
      exact hplain (e := 'n') rfl (by decide) (by decide) rfl
    by_cases hr : c = '\r'
    · subst hr
      exact hplain (e := 'r') rfl (by decide) (by decide) rfl
    by_cases ht : c = '\t'
    · subst ht
      exact hplain (e := 't') rfl (by decide) (by decide) rfl
    rw [escape, if_neg hquote, if_neg hbackslash, if_neg hb, if_neg hf, if_neg hn, if_neg hr,
      if_neg ht, if_pos hlow]
    exact stringBytes_encode_unit hlow done rest
  · rw [escape_of_plain hquote hbackslash (Nat.le_of_not_lt hlow)]
    rw [Text.Utf8.encode, List.flatMap_singleton]
    exact stringBytes_encodeChar hquote hbackslash (Nat.le_of_not_lt hlow) done rest

/-! ## Whole texts -/

/-- Reading a text behind its opening quote. -/
theorem stringBytes_encode_text (chars : List Char) (done rest : Bytes) :
    stringBytes done (encode (chars.flatMap escape ++ ['"']) ++ rest) =
      .ok (done.reverse ++ encode chars, rest) := by
  induction chars generalizing done with
  | nil =>
    rw [List.flatMap_nil, List.nil_append, show encode ['"'] = [byte '"'] from rfl,
      List.singleton_append, stringBytes_quote, encode, List.flatMap_nil, List.append_nil]
  | cons c chars ih =>
    rw [List.flatMap_cons, List.append_assoc, Text.Utf8.encode_append, List.append_assoc,
      stringBytes_encode_escape, ih, List.reverse_append, List.reverse_reverse,
      List.append_assoc, Text.Utf8.encode_cons]

/-- A text in quotes is read back, and no more than it. -/
theorem quoted_encode (text : String) (rest : Bytes) :
    quoted (encode (text.toList.flatMap escape ++ ['"']) ++ rest) = .ok (text, rest) := by
  rw [quoted, stringBytes_encode_text, List.reverse_nil, List.nil_append]
  simp only [Text.Utf8.toString?_encode, String.ofList_toList]

/-- What a text with quotes is followed by can be told from it. -/
theorem quote_append_inj {s t : String} {x y : List Char} (h : quote s ++ x = quote t ++ y) :
    s = t ∧ x = y := by
  have hread : ∀ (text : String) (after : List Char),
      quoted (encode ((quote text ++ after).tail)) = .ok (text, encode after) := by
    intro text after
    rw [quote, List.cons_append, List.tail_cons, Text.Utf8.encode_append, quoted_encode]
  have heq : (Except.ok (s, encode x) : Except Flaw (String × Bytes)) = .ok (t, encode y) := by
    rw [← hread s x, ← hread t y, h]
  obtain rfl : s = t := congrArg Prod.fst (Except.ok.inj heq)
  exact ⟨rfl, List.append_cancel_left h⟩

end SheetCompiler.Json
