import SheetCompiler.Json.Tree

/-!
# JSON texts

`Json.compact` writes a document without any white space, and `Json.pretty` with one member or item
on each line, two spaces deeper than what holds it.  In strings the quote, the backslash and the
control characters are escaped and all else is written as it is.

A floating-point number is written with the fewest digits that read back.  Its notation is positional
when the exponent of the first digit is between −5 and 15, and then it has a fractional part;
otherwise it has an exponent with a sign.
-/

namespace SheetCompiler.Json

/-! ## Strings -/

/-- A hexadecimal digit in lower case. -/
def hexDigit (n : Nat) : Char :=
  if n < 10 then Char.ofNat ('0'.toNat + n) else Char.ofNat ('a'.toNat + (n - 10))

/-- One character of a string. -/
def escape (c : Char) : List Char :=
  if c = '"' then ['\\', '"']
  else if c = '\\' then ['\\', '\\']
  else if c = Char.ofNat 0x8 then ['\\', 'b']
  else if c = Char.ofNat 0xc then ['\\', 'f']
  else if c = '\n' then ['\\', 'n']
  else if c = '\r' then ['\\', 'r']
  else if c = '\t' then ['\\', 't']
  else if c.toNat < 0x20 then
    ['\\', 'u', '0', '0', hexDigit (c.toNat / 16), hexDigit (c.toNat % 16)]
  else [c]

/-- A string in quotes. -/
def quote (text : String) : List Char := '"' :: (text.toList.flatMap escape ++ ['"'])

/-! ## Numbers -/

namespace Number

/-- The notation is positional from this exponent of the first digit on. -/
def leastPositional : Int := -5

/-- The notation is positional up to this exponent of the first digit. -/
def greatestPositional : Int := 15

/-- Digits in positional notation, where the first one has the given exponent. -/
def positional (digits : List Char) : (first : Int) → List Char
  | .negSucc n => '0' :: '.' :: (List.replicate n '0' ++ digits)
  | .ofNat n =>
    if digits.length ≤ n + 1 then
      digits ++ List.replicate (n + 1 - digits.length) '0' ++ ['.', '0']
    else digits.take (n + 1) ++ '.' :: digits.drop (n + 1)

/-- An exponent with its sign. -/
def signedExponent : Int → List Char
  | .ofNat n => 'e' :: '+' :: Nat.toDigits 10 n
  | .negSucc n => 'e' :: '-' :: Nat.toDigits 10 (n + 1)

/-- Digits with one place before the point and an exponent. -/
def scientific (digits : List Char) (first : Int) : List Char :=
  match digits with
  | [] => []
  | [digit] => digit :: signedExponent first
  | digit :: rest => digit :: '.' :: (rest ++ signedExponent first)

/-- A floating-point number. -/
def floatChars (x : Binary64) : List Char :=
  let decimal := Decimal.shortest x
  let digits := Nat.toDigits 10 decimal.digits
  let first := decimal.exponent + digits.length - 1
  let magnitude :=
    if leastPositional ≤ first ∧ first ≤ greatestPositional then positional digits first
    else scientific digits first
  if x.negative then '-' :: magnitude else magnitude

/-- A number. -/
def chars : Number → List Char
  | natural n => Nat.toDigits 10 n
  | negative n => '-' :: Nat.toDigits 10 n
  | float x => floatChars x

end Number

/-! ## Documents -/

mutual

/-- A document without white space. -/
def chars : Json → List Char
  | .null => ['n', 'u', 'l', 'l']
  | .bool true => ['t', 'r', 'u', 'e']
  | .bool false => ['f', 'a', 'l', 's', 'e']
  | .number n => n.chars
  | .string text => quote text
  | .array [] => ['[', ']']
  | .array (item :: rest) => '[' :: (chars item ++ itemChars rest)
  | .object [] => ['{', '}']
  | .object ((name, value) :: rest) =>
    '{' :: (quote name ++ ':' :: (chars value ++ memberChars rest))

/-- The items after the first, and the end of the array. -/
def itemChars : List Json → List Char
  | [] => [']']
  | item :: rest => ',' :: (chars item ++ itemChars rest)

/-- The members after the first, and the end of the object. -/
def memberChars : List (String × Json) → List Char
  | [] => ['}']
  | (name, value) :: rest => ',' :: (quote name ++ ':' :: (chars value ++ memberChars rest))

end

/-- The end of a line and the indentation of the next one. -/
def newLine (depth : Nat) : List Char := '\n' :: List.replicate (2 * depth) ' '

mutual

/-- A document on many lines, nested to a depth. -/
def prettyChars (depth : Nat) : Json → List Char
  | .null => ['n', 'u', 'l', 'l']
  | .bool true => ['t', 'r', 'u', 'e']
  | .bool false => ['f', 'a', 'l', 's', 'e']
  | .number n => n.chars
  | .string text => quote text
  | .array [] => ['[', ']']
  | .array (item :: rest) =>
    '[' :: (newLine (depth + 1) ++ (prettyChars (depth + 1) item ++ prettyItems depth rest))
  | .object [] => ['{', '}']
  | .object ((name, value) :: rest) =>
    '{' :: (newLine (depth + 1) ++ (quote name ++ ':' :: ' ' ::
      (prettyChars (depth + 1) value ++ prettyMembers depth rest)))

/-- The items after the first, and the end of an array at a depth. -/
def prettyItems (depth : Nat) : List Json → List Char
  | [] => newLine depth ++ [']']
  | item :: rest =>
    ',' :: (newLine (depth + 1) ++ (prettyChars (depth + 1) item ++ prettyItems depth rest))

/-- The members after the first, and the end of an object at a depth. -/
def prettyMembers (depth : Nat) : List (String × Json) → List Char
  | [] => newLine depth ++ ['}']
  | (name, value) :: rest =>
    ',' :: (newLine (depth + 1) ++ (quote name ++ ':' :: ' ' ::
      (prettyChars (depth + 1) value ++ prettyMembers depth rest)))

end

/-- A document as a text without white space. -/
def compact (json : Json) : String := String.ofList (chars json)

/-- A document as a text on many lines. -/
def pretty (json : Json) : String := String.ofList (prettyChars 0 json)

/-- A plain character stands for itself. -/
theorem escape_of_plain {c : Char} (hq : c ≠ '"') (hb : c ≠ '\\') (h : 0x20 ≤ c.toNat) :
    escape c = [c] := by
  have ne (d : Char) (hd : d.toNat < 0x20) : c ≠ d := fun e => by subst e; omega
  simp [escape, hq, hb, ne (Char.ofNat 0x8) (by decide), ne (Char.ofNat 0xc) (by decide),
    ne '\n' (by decide), ne '\r' (by decide), ne '\t' (by decide), Nat.not_lt.mpr h]

end SheetCompiler.Json
