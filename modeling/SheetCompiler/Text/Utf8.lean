/-!
# UTF-8

Texts enter and leave as bytes.  `encode` writes characters as one to four bytes each and `decode`
reads them back; a text that is not well formed is reported with the length of its well-formed
front, counted in bytes.  Both are plain arithmetic on code points: a continuation byte carries six
bits, so a character is a number in base 64 behind a leading byte that says how many digits follow.
-/

namespace SheetCompiler.Text

/-- Bytes of a text or a file. -/
abbrev Bytes := List UInt8

namespace Utf8

/-- The bytes of one character. -/
def encodeChar (c : Char) : Bytes :=
  let n := c.toNat
  if n < 0x80 then [n.toUInt8]
  else if n < 0x800 then [(0xc0 + n / 64).toUInt8, (0x80 + n % 64).toUInt8]
  else if n < 0x10000 then
    [(0xe0 + n / 4096).toUInt8, (0x80 + n / 64 % 64).toUInt8, (0x80 + n % 64).toUInt8]
  else
    [(0xf0 + n / 262144).toUInt8, (0x80 + n / 4096 % 64).toUInt8, (0x80 + n / 64 % 64).toUInt8,
      (0x80 + n % 64).toUInt8]

/-- The bytes of a text. -/
def encode (chars : List Char) : Bytes := chars.flatMap encodeChar

/-- The bytes of a string. -/
def ofString (text : String) : Bytes := encode text.toList

/-- The six bits of a continuation byte. -/
def continuation? (b : UInt8) : Option Nat :=
  if 0x80 ≤ b.toNat ∧ b.toNat < 0xc0 then some (b.toNat - 0x80) else none

/-- The character with a code point that needs at least `least`, so that no character has two
encodings; surrogates are no characters. -/
def char? (least code : Nat) : Option Char :=
  if h : code.isValidChar then
    if least ≤ code then some (Char.ofNatAux code h) else none
  else none

/-- The first character and its number of bytes. -/
def decodeChar? : Bytes → Option (Char × Nat)
  | [] => none
  | a :: rest =>
    let lead := a.toNat
    if lead < 0x80 then (char? 0 lead).map (·, 1)
    else if lead < 0xc0 then none
    else if lead < 0xe0 then
      match rest with
      | b :: _ => do
        let x ← continuation? b
        return (← char? 0x80 ((lead - 0xc0) * 64 + x), 2)
      | _ => none
    else if lead < 0xf0 then
      match rest with
      | b :: c :: _ => do
        let x ← continuation? b
        let y ← continuation? c
        return (← char? 0x800 ((lead - 0xe0) * 4096 + x * 64 + y), 3)
      | _ => none
    else if lead < 0xf8 then
      match rest with
      | b :: c :: d :: _ => do
        let x ← continuation? b
        let y ← continuation? c
        let z ← continuation? d
        return (← char? 0x10000 ((lead - 0xf0) * 262144 + x * 4096 + y * 64 + z), 4)
      | _ => none
    else none

/-- Decode at most `fuel` characters; on failure say how many bytes were well formed. -/
def decodeFrom (done : Nat) (read : List Char) : (fuel : Nat) → Bytes → Except Nat (List Char)
  | _, [] => .ok read.reverse
  | 0, _ :: _ => .error done
  | fuel + 1, bytes@(_ :: _) =>
    match decodeChar? bytes with
    | some (c, size) => decodeFrom (done + size) (c :: read) fuel (bytes.drop size)
    | none => .error done

/-- The characters of a well-formed text, or the length of its well-formed front. -/
def decode (bytes : Bytes) : Except Nat (List Char) := decodeFrom 0 [] bytes.length bytes

/-- The well-formed text as a string. -/
def toString? (bytes : Bytes) : Option String :=
  match decode bytes with
  | .ok chars => some (String.ofList chars)
  | .error _ => none

end Utf8

end SheetCompiler.Text
