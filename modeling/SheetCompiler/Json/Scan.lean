import SheetCompiler.Json.Tree
import SheetCompiler.Text.Utf8

/-!
# Scanning JSON texts

The words, strings and numbers of a JSON text, read from its bytes.  A scanner takes the bytes from
where it stands and gives what it has read and the bytes that follow.  Where the text breaks off the
flaw is `truncated`; any other breach of the grammar is `malformed`.

* `stringBytes` undoes escapes; surrogates must come in pairs.  The bytes of a string are checked to
  be well-formed text when its closing quote has been read.
* `numeral` keeps as many leading digits as fit into 64 bits and turns every further digit into a
  change of the exponent or drops it.  A number with a fraction or an exponent is the kept digits,
  rounded, times or divided by a rounded power of ten (`compose`).
-/

namespace SheetCompiler.Json

open Text (Bytes)

/-- What is wrong with a JSON text. -/
inductive Flaw where
  /-- It breaks the grammar. -/
  | malformed
  /-- It is well formed so far, but not of the expected form. -/
  | mismatch
  /-- It breaks off. -/
  | truncated
  /-- It could not be read at all. -/
  | unreadable
  deriving DecidableEq

/-- A reader of the front of a text. -/
abbrev Scanner (α : Type) := Bytes → Except Flaw (α × Bytes)

/-- The byte of an ASCII character. -/
def byte (c : Char) : UInt8 := c.toNat.toUInt8

/-- Space, tabulation, line feed and carriage return. -/
def isSpace (b : UInt8) : Bool :=
  b == byte ' ' || b == byte '\n' || b == byte '\t' || b == byte '\r'

/-- What follows the white space at the front. -/
def skipSpace (bytes : Bytes) : Bytes := bytes.dropWhile isSpace

/-! ## Words -/

/-- Read the given characters. -/
def word : (chars : List Char) → Scanner Unit
  | [], bytes => .ok ((), bytes)
  | _ :: _, [] => .error .truncated
  | c :: chars, b :: rest => if b = byte c then word chars rest else .error .malformed

/-! ## Strings -/

/-- The value of a hexadecimal digit. -/
def hexValue? (b : UInt8) : Option Nat :=
  let n := b.toNat
  if 0x30 ≤ n ∧ n ≤ 0x39 then some (n - 0x30)
  else if 0x41 ≤ n ∧ n ≤ 0x46 then some (n - 0x37)
  else if 0x61 ≤ n ∧ n ≤ 0x66 then some (n - 0x57)
  else none

/-- The value of four hexadecimal digits. -/
def hexUnit? (a b c d : UInt8) : Option Nat := do
  return ((← hexValue? a) * 16 + (← hexValue? b)) * 256 + (← hexValue? c) * 16 + (← hexValue? d)

/-- The byte of an escape of one letter. -/
def plainEscape? (b : UInt8) : Option UInt8 :=
  if b = byte '"' ∨ b = byte '\\' ∨ b = byte '/' then some b
  else if b = byte 'b' then some 0x8
  else if b = byte 'f' then some 0xc
  else if b = byte 'n' then some 0xa
  else if b = byte 'r' then some 0xd
  else if b = byte 't' then some 0x9
  else none

/-- The first half of a surrogate pair. -/
def isHighSurrogate (unit : Nat) : Bool := 0xd800 ≤ unit && unit ≤ 0xdbff

/-- The second half of a surrogate pair. -/
def isLowSurrogate (unit : Nat) : Bool := 0xdc00 ≤ unit && unit ≤ 0xdfff

/-- The bytes of a code point, last one first. -/
def reversedBytes (code : Nat) : Bytes := (Text.Utf8.encodeChar (Char.ofNat code)).reverse

/-- Read the rest of a string behind its opening quote; what has been read is kept last byte
first. -/
def stringBytes (done : Bytes) : Scanner Bytes
  | [] => .error .truncated
  | b :: rest =>
    if b = byte '"' then .ok (done.reverse, rest)
    else if b = byte '\\' then
      match rest with
      | [] => .error .truncated
      | e :: rest =>
        match plainEscape? e with
        | some plain => stringBytes (plain :: done) rest
        | none =>
          if e ≠ byte 'u' then .error .malformed
          else
            match rest with
            | h₁ :: h₂ :: h₃ :: h₄ :: rest =>
              match hexUnit? h₁ h₂ h₃ h₄ with
              | none => .error .malformed
              | some high =>
                if isLowSurrogate high then .error .malformed
                else if isHighSurrogate high then
                  match rest with
                  | [] => .error .truncated
                  | [s] => if s = byte '\\' then .error .truncated else .error .malformed
                  | s :: u :: rest =>
                    if s ≠ byte '\\' ∨ u ≠ byte 'u' then .error .malformed
                    else
                      match rest with
                      | l₁ :: l₂ :: l₃ :: l₄ :: rest =>
                        match hexUnit? l₁ l₂ l₃ l₄ with
                        | none => .error .malformed
                        | some low =>
                          if isLowSurrogate low then
                            let code := (high - 0xd800) * 0x400 + (low - 0xdc00) + 0x10000
                            stringBytes (reversedBytes code ++ done) rest
                          else .error .malformed
                      | _ => .error .truncated
                else stringBytes (reversedBytes high ++ done) rest
            | _ => .error .truncated
    else if b < 0x20 then .error .malformed
    else stringBytes (b :: done) rest

/-- Read a string behind its opening quote. -/
def quoted : Scanner String := fun bytes =>
  match stringBytes [] bytes with
  | .error flaw => .error flaw
  | .ok (read, rest) =>
    match Text.Utf8.toString? read with
    | some text => .ok (text, rest)
    | none => .error .malformed

/-! ## Numbers -/

/-- The value of a decimal digit. -/
def digit? (b : UInt8) : Option Nat :=
  if 0x30 ≤ b.toNat ∧ b.toNat ≤ 0x39 then some (b.toNat - 0x30) else none

/-- The largest number of 64 bits. -/
def wordMax : Nat := UInt64.size - 1

/-- The largest exponent that is read as it is written. -/
def exponentMax : Nat := UInt32.size / 2 - 1

/-- The digits of the whole part: those that fit into 64 bits, and the number of those that do not. -/
def wholeDigits (kept dropped : Nat) : Bytes → (Nat × Nat) × Bytes
  | [] => ((kept, dropped), [])
  | b :: rest =>
    match digit? b with
    | none => ((kept, dropped), b :: rest)
    | some d =>
      if dropped = 0 ∧ kept * 10 + d ≤ wordMax then wholeDigits (kept * 10 + d) 0 rest
      else wholeDigits kept (dropped + 1) rest

/-- The digits of the fraction: more digits are kept as long as all fit into 64 bits. -/
def fractionDigits (kept places : Nat) (full : Bool) : Bytes → (Nat × Nat) × Bytes
  | [] => ((kept, places), [])
  | b :: rest =>
    match digit? b with
    | none => ((kept, places), b :: rest)
    | some d =>
      if !full ∧ kept * 10 + d ≤ wordMax then fractionDigits (kept * 10 + d) (places + 1) false rest
      else fractionDigits kept places true rest

/-- The value of the digits of an exponent and what follows them. -/
def exponentDigits (value : Nat) : Bytes → Nat × Bytes
  | [] => (value, [])
  | b :: rest =>
    match digit? b with
    | none => (value, b :: rest)
    | some d => exponentDigits (value * 10 + d) rest

/-- A rounded power of ten, up to the largest that there is. -/
def tenPower (n : Nat) : Option Binary64 := Binary64.ofNat (Nat.pow 10 n)

/-- The largest exponent of a rounded power of ten. -/
def tenPowerMax : Nat := 308

/-- Divide by a power of ten, in as many steps as powers of ten need. -/
def lower (x : Binary64) : (steps : Nat) → (exponent : Nat) → Option Binary64
  | 0, _ => some Binary64.zero
  | steps + 1, exponent =>
    if exponent ≤ tenPowerMax then do x.div (← tenPower exponent)
    else if x.significand = 0 then some x
    else do lower (← x.div (← tenPower tenPowerMax)) steps (exponent - tenPowerMax)

/-- The kept digits times a power of ten, unless the result is too large.  Three divisions by the
largest power of ten leave nothing of any number of 64 bits. -/
def compose (kept : Nat) (exponent : Int) : Option Binary64 := do
  let x ← Binary64.ofNat kept
  match exponent with
  | .ofNat n =>
    if n ≤ tenPowerMax then x.mul (← tenPower n) else if kept = 0 then some x else none
  | .negSucc n => lower x 4 (n + 1)

/-- The floating-point number with the given sign, or the flaw of being too large. -/
def float (negative : Bool) (rest : Bytes) (value : Option Binary64) :
    Except Flaw (Number × Bytes) :=
  match value with
  | some x => .ok (.float (x.withSign negative), rest)
  | none => .error .malformed

/-- Read an exponent behind its letter. -/
def exponentPart (negative : Bool) (kept : Nat) (exponent : Int) : Scanner Number := fun bytes =>
  let (minus, bytes) :=
    match bytes with
    | [] => (false, [])
    | b :: rest =>
      if b = byte '+' then (false, rest) else if b = byte '-' then (true, rest)
      else (false, b :: rest)
  match bytes with
  | [] => .error .truncated
  | b :: rest =>
    if (digit? b).isNone then .error .malformed
    else
      let (value, rest) := exponentDigits 0 (b :: rest)
      if exponentMax < value ∧ !minus ∧ kept ≠ 0 then .error .malformed
      else if exponentMax < value then float negative rest (some Binary64.zero)
      else float negative rest
        (compose kept (if minus then exponent - value else exponent + value))

/-- Whether an exponent follows. -/
def startsExponent (b : UInt8) : Bool := b == byte 'e' || b == byte 'E'

/-- Read an exponent if there is one. -/
def optionalExponent (negative : Bool) (kept : Nat) (exponent : Int) : Scanner Number
  | [] => float negative [] (compose kept exponent)
  | b :: rest =>
    if startsExponent b then exponentPart negative kept exponent rest
    else float negative (b :: rest) (compose kept exponent)

/-- Read a fraction behind the point. -/
def fractionPart (negative : Bool) (kept dropped : Nat) : Scanner Number
  | [] => .error .truncated
  | b :: rest =>
    if (digit? b).isNone then .error .malformed
    else
      let ((kept, places), rest) := fractionDigits kept 0 false (b :: rest)
      optionalExponent negative kept ((dropped : Int) - places) rest

/-- A number without a fraction or an exponent: a whole number if it fits, else a floating-point
number.  Zero with a minus sign is one of these. -/
def wholeNumber (negative : Bool) (kept dropped : Nat) (rest : Bytes) :
    Except Flaw (Number × Bytes) :=
  if dropped ≠ 0 then float negative rest (compose kept dropped)
  else if !negative then .ok (.natural kept, rest)
  else if kept = 0 ∨ UInt64.size / 2 < kept then float true rest (Binary64.ofNat kept)
  else .ok (.negative kept, rest)

/-- Read what follows the whole part of a number. -/
def afterWhole (negative : Bool) (kept dropped : Nat) : Scanner Number
  | [] => wholeNumber negative kept dropped []
  | b :: rest =>
    if b = byte '.' then fractionPart negative kept dropped rest
    else if startsExponent b then exponentPart negative kept dropped rest
    else wholeNumber negative kept dropped (b :: rest)

/-- Read a number behind its sign.  A leading zero stands alone. -/
def unsigned (negative : Bool) : Scanner Number
  | [] => .error .truncated
  | b :: rest =>
    match digit? b with
    | none => .error .malformed
    | some 0 =>
      match rest with
      | [] => afterWhole negative 0 0 []
      | c :: _ => if (digit? c).isSome then .error .malformed else afterWhole negative 0 0 rest
    | some d =>
      let ((kept, dropped), rest) := wholeDigits d 0 rest
      afterWhole negative kept dropped rest

/-- Read a number. -/
def numeral : Scanner Number
  | [] => .error .truncated
  | b :: rest => if b = byte '-' then unsigned true rest else unsigned false (b :: rest)

/-- Whether a number starts with this byte. -/
def startsNumber (b : UInt8) : Bool := b == byte '-' || (digit? b).isSome

/-! ## Single values -/

/-- Put what was read into a tree. -/
def asTree {α : Type} (make : α → Json) (read : Except Flaw (α × Bytes)) :
    Except Flaw (Json × Bytes) :=
  match read with
  | .ok (value, rest) => .ok (make value, rest)
  | .error flaw => .error flaw

/-- Read a value that is neither an array nor an object. -/
def single : Scanner Json
  | [] => .error .truncated
  | b :: rest =>
    if b = byte 'n' then asTree (fun _ => .null) (word ['u', 'l', 'l'] rest)
    else if b = byte 't' then asTree (fun _ => .bool true) (word ['r', 'u', 'e'] rest)
    else if b = byte 'f' then asTree (fun _ => .bool false) (word ['a', 'l', 's', 'e'] rest)
    else if b = byte '"' then asTree .string (quoted rest)
    else if startsNumber b then asTree .number (numeral (b :: rest))
    else .error .malformed

end SheetCompiler.Json
