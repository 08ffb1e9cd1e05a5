import SheetCompiler.Json.Scan

/-!
# Skipping JSON values

A member that nobody asks for is skipped.  It must follow the grammar, but no more than that is
asked of it: its numbers may have any size, its strings may hold any bytes and any escaped units, and
it may be nested to any depth.
-/

namespace SheetCompiler.Json

open Text (Bytes)

/-- Skip the rest of a string behind its opening quote. -/
def skipString : Bytes → Except Flaw Bytes
  | [] => .error .truncated
  | b :: rest =>
    if b = byte '"' then .ok rest
    else if b = byte '\\' then
      match rest with
      | [] => .error .truncated
      | e :: rest =>
        if (plainEscape? e).isSome then skipString rest
        else if e ≠ byte 'u' then .error .malformed
        else
          match rest with
          | h₁ :: h₂ :: h₃ :: h₄ :: rest =>
            if (hexUnit? h₁ h₂ h₃ h₄).isSome then skipString rest else .error .malformed
          | _ => .error .truncated
    else if b < 0x20 then .error .malformed
    else skipString rest

/-- What follows the digits at the front. -/
def skipDigits (bytes : Bytes) : Bytes := bytes.dropWhile fun b => (digit? b).isSome

/-- Skip at least one digit. -/
def skipSomeDigits : Bytes → Except Flaw Bytes
  | [] => .error .malformed
  | b :: rest => if (digit? b).isSome then .ok (skipDigits rest) else .error .malformed

/-- Skip an exponent, if there is one. -/
def skipExponent : Bytes → Except Flaw Bytes
  | [] => .ok []
  | b :: rest =>
    if startsExponent b then
      match rest with
      | [] => .error .malformed
      | s :: digits =>
        if s = byte '+' ∨ s = byte '-' then skipSomeDigits digits else skipSomeDigits rest
    else .ok (b :: rest)

/-- Skip a fraction and an exponent, if there are any. -/
def skipFraction : Bytes → Except Flaw Bytes
  | [] => .ok []
  | b :: rest =>
    if b = byte '.' then
      match skipSomeDigits rest with
      | .ok rest => skipExponent rest
      | .error flaw => .error flaw
    else skipExponent (b :: rest)

/-- Skip a number behind its sign. -/
def skipUnsigned : Bytes → Except Flaw Bytes
  | [] => .error .malformed
  | b :: rest =>
    match digit? b with
    | none => .error .malformed
    | some 0 =>
      match rest with
      | [] => .ok []
      | c :: _ => if (digit? c).isSome then .error .malformed else skipFraction rest
    | some _ => skipFraction (skipDigits rest)

/-- Skip a number. -/
def skipNumber : Bytes → Except Flaw Bytes
  | [] => .error .malformed
  | b :: rest => if b = byte '-' then skipUnsigned rest else skipUnsigned (b :: rest)

/-- The rest behind a word. -/
def skipWord (chars : List Char) (bytes : Bytes) : Except Flaw Bytes :=
  match word chars bytes with
  | .ok (_, rest) => .ok rest
  | .error flaw => .error flaw

/-- Skip a value that is neither an array nor an object. -/
def skipSingle : Bytes → Except Flaw Bytes
  | [] => .error .truncated
  | b :: rest =>
    if b = byte 'n' then skipWord ['u', 'l', 'l'] rest
    else if b = byte 't' then skipWord ['r', 'u', 'e'] rest
    else if b = byte 'f' then skipWord ['a', 'l', 's', 'e'] rest
    else if b = byte '"' then skipString rest
    else if startsNumber b then skipNumber (b :: rest)
    else .error .malformed

/-- Skip the name of a member and its colon. -/
def skipName (bytes : Bytes) : Except Flaw Bytes :=
  match skipSpace bytes with
  | [] => .error .truncated
  | b :: rest =>
    if b ≠ byte '"' then .error .malformed
    else
      match skipString rest with
      | .error flaw => .error flaw
      | .ok rest =>
        match skipSpace rest with
        | [] => .error .truncated
        | c :: rest => if c = byte ':' then .ok rest else .error .malformed

/-- What encloses a value. -/
inductive Enclosure where
  | array
  | object
  deriving DecidableEq

/-- The byte that ends an enclosure. -/
def Enclosure.closing : Enclosure → UInt8
  | array => byte ']'
  | object => byte '}'

/-- What a text goes on with inside nested enclosures. -/
inductive Expected where
  | value
  | member
  /-- The end of the innermost enclosure, or a further value of it. -/
  | more
  deriving DecidableEq

/-- What stands behind a comma of an enclosure. -/
def Enclosure.next : Enclosure → Expected
  | array => .value
  | object => .member

/-- Skip the rest of nested enclosures, innermost first.  Every step takes at least one byte, so the
length of the text bounds the number of steps. -/
def skipEnclosed : (steps : Nat) → List Enclosure → Expected → Bytes → Except Flaw Bytes
  | 0, _, _, _ => .error .truncated
  | steps + 1, around, .value, bytes =>
    match skipSpace bytes with
    | [] => .error .truncated
    | b :: rest =>
      if b = byte '[' then
        match skipSpace rest with
        | [] => .error .truncated
        | c :: after =>
          if c = byte ']' then skipEnclosed steps around .more after
          else skipEnclosed steps (.array :: around) .value rest
      else if b = byte '{' then
        match skipSpace rest with
        | [] => .error .truncated
        | c :: after =>
          if c = byte '}' then skipEnclosed steps around .more after
          else skipEnclosed steps (.object :: around) .member rest
      else
        match skipSingle (b :: rest) with
        | .error flaw => .error flaw
        | .ok rest => skipEnclosed steps around .more rest
  | steps + 1, around, .member, bytes =>
    match skipName bytes with
    | .error flaw => .error flaw
    | .ok rest => skipEnclosed steps around .value rest
  | _ + 1, [], .more, bytes => .ok bytes
  | steps + 1, innermost :: outer, .more, bytes =>
    match skipSpace bytes with
    | [] => .error .truncated
    | b :: rest =>
      if b = byte ',' then skipEnclosed steps (innermost :: outer) innermost.next rest
      else if b = innermost.closing then skipEnclosed steps outer .more rest
      else .error .malformed

/-- Skip a value. -/
def skipValue (bytes : Bytes) : Except Flaw Bytes :=
  skipEnclosed (bytes.length + 2) [] .value bytes

end SheetCompiler.Json
