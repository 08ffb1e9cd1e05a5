import SheetCompiler.Text.Utf8

/-!
# Texts as bytes

A character has one to four bytes, by its code point (`encodeChar_cases`), and they are read back with
nothing of what follows them (`decodeChar?_encodeChar`).  So every text is read back from its bytes
(`decode_encode`).

Only the characters below 128 have bytes below 128 (`le_toNat_of_mem_encodeChar`).  A byte that means a
quote or a comma is therefore never a part of another character.
-/

namespace SheetCompiler.Text.Utf8

/-! ## Bytes of a character -/

theorem toNat_toUInt8 {n : Nat} (h : n < 256) : n.toUInt8.toNat = n := by
  rw [Nat.toUInt8, UInt8.toNat_ofNat', Nat.mod_eq_of_lt h]

theorem continuation?_of_lt {x : Nat} (h : x < 64) :
    continuation? (128 + x).toUInt8 = some x := by
  rw [continuation?, toNat_toUInt8 (by omega), if_pos (by omega), Nat.add_sub_cancel_left]

/-- The character with the code point of a character. -/
theorem char?_toNat {least : Nat} {c : Char} (h : least ≤ c.toNat) :
    char? least c.toNat = some c := by
  have hvalid : c.toNat.isValidChar := c.valid
  rw [char?, dif_pos hvalid, if_pos h]
  rfl

theorem toNat_lt (c : Char) : c.toNat < 1114112 := by
  have hvalid : c.toNat.isValidChar := c.valid
  unfold Nat.isValidChar at hvalid
  omega

/-- A character has one to four bytes, by its code point. -/
theorem encodeChar_cases (c : Char) :
    (c.toNat < 128 ∧ encodeChar c = [c.toNat.toUInt8]) ∨
    (128 ≤ c.toNat ∧ c.toNat < 2048 ∧
      encodeChar c = [(192 + c.toNat / 64).toUInt8, (128 + c.toNat % 64).toUInt8]) ∨
    (2048 ≤ c.toNat ∧ c.toNat < 65536 ∧
      encodeChar c = [(224 + c.toNat / 4096).toUInt8, (128 + c.toNat / 64 % 64).toUInt8,
        (128 + c.toNat % 64).toUInt8]) ∨
    (65536 ≤ c.toNat ∧
      encodeChar c = [(240 + c.toNat / 262144).toUInt8, (128 + c.toNat / 4096 % 64).toUInt8,
        (128 + c.toNat / 64 % 64).toUInt8, (128 + c.toNat % 64).toUInt8]) := by
  by_cases hone : c.toNat < 128
  · exact Or.inl ⟨hone, by simp only [encodeChar, hone, if_true]⟩
  · by_cases htwo : c.toNat < 2048
    · exact Or.inr (Or.inl ⟨by omega, htwo, by simp only [encodeChar, hone, htwo, if_true, if_false]⟩)
    · by_cases hthree : c.toNat < 65536
      · exact Or.inr (Or.inr (Or.inl ⟨by omega, hthree, by
          simp only [encodeChar, hone, htwo, hthree, if_true, if_false]⟩))
      · exact Or.inr (Or.inr (Or.inr ⟨by omega, by
          simp only [encodeChar, hone, htwo, hthree, if_false]⟩))

/-! ## Reading back -/

theorem decodeChar?_one {a : UInt8} (h : a.toNat < 128) (rest : Bytes) :
    decodeChar? (a :: rest) = (char? 0 a.toNat).map (·, 1) := by
  rw [decodeChar?.eq_def]
  exact if_pos h

theorem decodeChar?_two {a b : UInt8} {x : Nat} (hlow : 192 ≤ a.toNat) (hhigh : a.toNat < 224)
    (hb : continuation? b = some x) (rest : Bytes) :
    decodeChar? (a :: b :: rest) =
      (char? 128 ((a.toNat - 192) * 64 + x)).map (·, 2) := by
  rw [decodeChar?, if_neg (by omega), if_neg (by omega), if_pos hhigh]
  dsimp only [Option.bind_eq_bind]
  rw [hb, Option.bind_some]
  exact Option.map_eq_bind.symm

theorem decodeChar?_three {a b c : UInt8} {x y : Nat} (hlow : 224 ≤ a.toNat)
    (hhigh : a.toNat < 240) (hb : continuation? b = some x) (hc : continuation? c = some y)
    (rest : Bytes) :
    decodeChar? (a :: b :: c :: rest) =
      (char? 2048 ((a.toNat - 224) * 4096 + x * 64 + y)).map (·, 3) := by
  rw [decodeChar?, if_neg (by omega), if_neg (by omega), if_neg (by omega), if_pos hhigh]
  dsimp only [Option.bind_eq_bind]
  rw [hb, Option.bind_some, hc, Option.bind_some]
  exact Option.map_eq_bind.symm

theorem decodeChar?_four {a b c d : UInt8} {x y z : Nat} (hlow : 240 ≤ a.toNat)
    (hhigh : a.toNat < 248) (hb : continuation? b = some x) (hc : continuation? c = some y)
    (hd : continuation? d = some z) (rest : Bytes) :
    decodeChar? (a :: b :: c :: d :: rest) =
      (char? 65536 ((a.toNat - 240) * 262144 + x * 4096 + y * 64 + z)).map (·, 4) := by
  rw [decodeChar?, if_neg (by omega), if_neg (by omega), if_neg (by omega), if_neg (by omega),
    if_pos hhigh]
  dsimp only [Option.bind_eq_bind]
  rw [hb, Option.bind_some, hc, Option.bind_some, hd, Option.bind_some]
  exact Option.map_eq_bind.symm

/-- A character is read back from its bytes, whatever follows. -/
theorem decodeChar?_encodeChar (c : Char) (rest : Bytes) :
    decodeChar? (encodeChar c ++ rest) = some (c, (encodeChar c).length) := by
  have hlt := toNat_lt c
  rcases encodeChar_cases c with ⟨hone, heq⟩ | ⟨hlow, htwo, heq⟩ | ⟨hlow, hthree, heq⟩ | ⟨hlow, heq⟩
  · have hlead : c.toNat.toUInt8.toNat = c.toNat := toNat_toUInt8 (by omega)
    rw [heq, List.singleton_append, decodeChar?_one (by omega), hlead,
      char?_toNat (Nat.zero_le _)]
    rfl
  · have hlead : (192 + c.toNat / 64).toUInt8.toNat = 192 + c.toNat / 64 := toNat_toUInt8 (by omega)
    have hcode : (192 + c.toNat / 64 - 192) * 64 + c.toNat % 64 = c.toNat := by omega
    rw [heq, List.cons_append, List.singleton_append, decodeChar?_two (by omega) (by omega)
      (continuation?_of_lt (by omega)), hlead, hcode, char?_toNat hlow]
    rfl
  · have hlead : (224 + c.toNat / 4096).toUInt8.toNat = 224 + c.toNat / 4096 :=
      toNat_toUInt8 (by omega)
    have hcode : (224 + c.toNat / 4096 - 224) * 4096 + c.toNat / 64 % 64 * 64 + c.toNat % 64 =
        c.toNat := by omega
    rw [heq, List.cons_append, List.cons_append, List.singleton_append,
      decodeChar?_three (by omega) (by omega) (continuation?_of_lt (by omega))
        (continuation?_of_lt (by omega)), hlead, hcode, char?_toNat hlow]
    rfl
  · have hlead : (240 + c.toNat / 262144).toUInt8.toNat = 240 + c.toNat / 262144 :=
      toNat_toUInt8 (by omega)
    have hcode : (240 + c.toNat / 262144 - 240) * 262144 + c.toNat / 4096 % 64 * 4096 +
        c.toNat / 64 % 64 * 64 + c.toNat % 64 = c.toNat := by omega
    rw [heq, List.cons_append, List.cons_append, List.cons_append, List.singleton_append,
      decodeChar?_four (by omega) (by omega) (continuation?_of_lt (by omega))
        (continuation?_of_lt (by omega)) (continuation?_of_lt (by omega)), hlead, hcode,
      char?_toNat hlow]
    rfl

theorem encode_cons (c : Char) (chars : List Char) :
    encode (c :: chars) = encodeChar c ++ encode chars := rfl

theorem encode_append (front back : List Char) :
    encode (front ++ back) = encode front ++ encode back := List.flatMap_append

theorem encodeChar_ne_nil (c : Char) : encodeChar c ≠ [] := by
  rcases encodeChar_cases c with ⟨-, heq⟩ | ⟨-, -, heq⟩ | ⟨-, -, heq⟩ | ⟨-, heq⟩ <;> rw [heq] <;>
    exact List.cons_ne_nil _ _

theorem length_le_encode (chars : List Char) : chars.length ≤ (encode chars).length := by
  induction chars with
  | nil => exact Nat.le_refl _
  | cons c rest ih =>
    have hpos := List.length_pos_iff.mpr (encodeChar_ne_nil c)
    rw [encode_cons, List.length_append, List.length_cons]
    omega

/-- Every character takes a byte at least, so as many steps as there are characters are enough. -/
theorem decodeFrom_encode {chars : List Char} : ∀ {fuel : Nat}, chars.length ≤ fuel →
    ∀ done read, decodeFrom done read fuel (encode chars) = .ok (read.reverse ++ chars) := by
  induction chars with
  | nil =>
    intro fuel _ done read
    cases fuel <;> simp [encode, decodeFrom]
  | cons c rest ih =>
    intro fuel hfuel done read
    obtain ⟨b, bytes, hbytes⟩ := List.exists_cons_of_ne_nil (encodeChar_ne_nil c)
    cases fuel with
    | zero => cases hfuel
    | succ fuel =>
      have hdecode := decodeChar?_encodeChar c (encode rest)
      have hdrop : (encodeChar c ++ encode rest).drop (encodeChar c).length = encode rest :=
        List.drop_left
      rw [encode_cons]
      rw [hbytes] at hdecode hdrop ⊢
      rw [List.cons_append] at hdecode hdrop ⊢
      rw [decodeFrom]
      simp only [hdecode, hdrop]
      rw [ih (Nat.le_of_succ_le_succ hfuel)]
      simp

theorem decode_encode (chars : List Char) : decode (encode chars) = .ok chars :=
  decodeFrom_encode (length_le_encode chars) 0 []

theorem toString?_encode (chars : List Char) :
    toString? (encode chars) = some (String.ofList chars) := by
  rw [toString?, decode_encode]

theorem encodeChar_of_lt {c : Char} (h : c.toNat < 128) : encodeChar c = [c.toNat.toUInt8] := by
  simp only [encodeChar, h, if_true]

/-- The bytes of a character beyond the ASCII ones are beyond these as well. -/
theorem le_toNat_of_mem_encodeChar {c : Char} (h : 128 ≤ c.toNat) {b : UInt8}
    (hb : b ∈ encodeChar c) : 128 ≤ b.toNat := by
  have hlt := toNat_lt c
  rcases encodeChar_cases c with ⟨hone, -⟩ | ⟨-, htwo, heq⟩ | ⟨-, hthree, heq⟩ | ⟨-, heq⟩
  · omega
  · simp only [heq, List.mem_cons, List.not_mem_nil, or_false] at hb
    rcases hb with rfl | rfl <;> rw [toNat_toUInt8 (by omega)] <;> omega
  · simp only [heq, List.mem_cons, List.not_mem_nil, or_false] at hb
    rcases hb with rfl | rfl | rfl <;> rw [toNat_toUInt8 (by omega)] <;> omega
  · simp only [heq, List.mem_cons, List.not_mem_nil, or_false] at hb
    rcases hb with rfl | rfl | rfl | rfl <;> rw [toNat_toUInt8 (by omega)] <;> omega

end SheetCompiler.Text.Utf8
