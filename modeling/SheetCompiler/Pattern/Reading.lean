import SheetCompiler.Pattern.Matching

/-!
# Reading patterns

The written form of a pattern: literals, `.`, bracket expressions, class escapes, anchors, groups,
alternatives and repetitions.  `Pattern.read?` gives nothing for a text that is no pattern: an
unclosed bracket or group, a repetition of nothing, bounds in the wrong order, an unknown escape, a
switch given twice, a name of two groups or a look-around.

## What is left out

The reader does not know all of the syntax that patterns may be written in.

* It gives nothing for a pattern with a class of Unicode by name (`\p` and `\P`), with the switch `x`
  for blanks and comments in patterns, with an edge of words in braces (`\b{start}`), or with a name
  of a group beyond ASCII, although these are patterns.
* It reads the switches `u`, `U` and `R` and does not heed them: classes are those of Unicode even
  where `u` is off, and lines end at line feeds only even where `R` is on.  (Whether there is a match
  does not depend on `U`, which makes repetitions lazy.)
* It sets no limit to how deep groups are nested, nor to how large a pattern becomes with its
  repetitions.

Whether a worksheet compiles, and to what, is stated for any matcher of names (`Rules.isIdentifier`),
so none of that depends on this module.

## How a pattern is read

The reader walks the text once.  What is open is a stack of groups, each with the alternatives
finished so far and the items of the current one, so nesting needs no recursion; every step takes
at least one character, and the number of characters bounds the walk.
-/

namespace SheetCompiler.Pattern

/-- Switches that change how the rest of a group is read. -/
structure Flags where
  anyCase : Bool := false
  multiLine : Bool := false
  dotAll : Bool := false

/-! ## Escapes -/

/-- What an escape stands for. -/
inductive Escape where
  | literal (c : Char)
  | set (set : CharSet)
  | edge (kind : Edge)

/-- The value of a hexadecimal digit. -/
def hexDigit? (c : Char) : Option Nat :=
  if '0' ≤ c ∧ c ≤ '9' then some (c.toNat - '0'.toNat)
  else if 'a' ≤ c ∧ c ≤ 'f' then some (c.toNat - 'a'.toNat + 10)
  else if 'A' ≤ c ∧ c ≤ 'F' then some (c.toNat - 'A'.toNat + 10)
  else none

/-- The character with a hexadecimal code point. -/
def hexChar? (digits : List Char) : Option Char := do
  if digits.isEmpty then none
  let values ← digits.mapM hexDigit?
  let code := values.foldl (fun code digit => code * 16 + digit) 0
  if h : code.isValidChar then some (Char.ofNatAux code h) else none

/-- A code point in braces, or of a fixed number of digits. -/
def readHex (count : Nat) (chars : List Char) : Option (Char × List Char) :=
  match chars with
  | '{' :: rest =>
    let digits := rest.takeWhile (· != '}')
    match rest.drop digits.length with
    | '}' :: rest => (hexChar? digits).map (·, rest)
    | _ => none
  | _ =>
    if chars.length < count then none
    else (hexChar? (chars.take count)).map (·, chars.drop count)

/-- The escape after a backslash. -/
def readEscape : List Char → Option (Escape × List Char)
  | [] => none
  | c :: rest =>
    match c with
    | 'd' => some (.set .digit, rest)
    | 'D' => some (.set (.complement .digit), rest)
    | 's' => some (.set .blank, rest)
    | 'S' => some (.set (.complement .blank), rest)
    | 'w' => some (.set .word, rest)
    | 'W' => some (.set (.complement .word), rest)
    | 'a' => some (.literal '\x07', rest)
    | 'f' => some (.literal '\x0c', rest)
    | 't' => some (.literal '\t', rest)
    | 'n' => some (.literal '\n', rest)
    | 'r' => some (.literal '\r', rest)
    | 'v' => some (.literal '\x0b', rest)
    | 'A' => some (.edge .textStart, rest)
    | 'z' => some (.edge .textEnd, rest)
    | 'b' => some (.edge .word, rest)
    | 'B' => some (.edge .insideWord, rest)
    | '<' => some (.edge .wordStart, rest)
    | '>' => some (.edge .wordEnd, rest)
    | 'x' => (readHex 2 rest).map fun (c, rest) => (.literal c, rest)
    | 'u' => (readHex 4 rest).map fun (c, rest) => (.literal c, rest)
    | 'U' => (readHex 8 rest).map fun (c, rest) => (.literal c, rest)
    | _ => if c.toNat < 0x80 && !c.isAlphanum then some (.literal c, rest) else none

/-! ## Bracket expressions -/

/-- The named classes of ASCII characters. -/
def namedClass? (name : String) : Option CharSet :=
  match name with
  | "alnum" => some (.ofRanges [('0', '9'), ('A', 'Z'), ('a', 'z')])
  | "alpha" => some (.ofRanges [('A', 'Z'), ('a', 'z')])
  | "ascii" => some (.ofRanges [('\x00', '\x7f')])
  | "blank" => some (.ofRanges [('\t', '\t'), (' ', ' ')])
  | "cntrl" => some (.ofRanges [('\x00', '\x1f'), ('\x7f', '\x7f')])
  | "digit" => some (.ofRanges [('0', '9')])
  | "graph" => some (.ofRanges [('!', '~')])
  | "lower" => some (.ofRanges [('a', 'z')])
  | "print" => some (.ofRanges [(' ', '~')])
  | "punct" => some (.ofRanges [('!', '/'), (':', '@'), ('[', '\x60'), ('\x7b', '~')])
  | "space" => some (.ofRanges [('\t', '\r'), (' ', ' ')])
  | "upper" => some (.ofRanges [('A', 'Z')])
  | "word" => some (.ofRanges [('0', '9'), ('A', 'Z'), ('_', '_'), ('a', 'z')])
  | "xdigit" => some (.ofRanges [('0', '9'), ('A', 'F'), ('a', 'f')])
  | _ => none

/-- A named class in brackets and colons, negated by a caret, after its opening bracket. -/
def readNamedClass : List Char → Option (CharSet × List Char)
  | ':' :: rest =>
    let (negated, rest) := match rest with
      | '^' :: rest => (true, rest)
      | _ => (false, rest)
    let name := rest.takeWhile (· != ':')
    match rest.drop name.length with
    | ':' :: ']' :: rest =>
      (namedClass? (String.ofList name)).map fun set =>
        (if negated then .complement set else set, rest)
    | _ => none
  | _ => none

/-- One element of a bracket expression: a character, or a class that no range may end in. -/
def readElement : List Char → Option ((Char ⊕ CharSet) × List Char)
  | [] => none
  | '\\' :: rest =>
    match readEscape rest with
    | some (.literal c, rest) => some (.inl c, rest)
    | some (.set set, rest) => some (.inr set, rest)
    | _ => none
  | c :: rest => some (.inl c, rest)

/-- An element or a range of a bracket expression. -/
def readRange (chars : List Char) : Option (CharSet × List Char) := do
  let (first, rest) ← readElement chars
  let alone : Option (CharSet × List Char) :=
    match first with
    | .inl c => some (.single c, rest)
    | .inr set => some (set, rest)
  match rest with
  | '-' :: ']' :: _ | '-' :: '-' :: _ => alone
  | '-' :: rest =>
    match first, ← readElement rest with
    | .inl first, (.inl last, rest) =>
      if first ≤ last then some (.range first.toNat last.toNat, rest) else none
    | _, _ => none
  | _ => alone

/-- An operation between parts of a bracket expression. -/
inductive SetOperation where
  | intersection
  | difference
  | symmetricDifference

/-- Apply an operation that was waiting for its right side. -/
def SetOperation.finish (waiting : Option (SetOperation × CharSet)) (right : CharSet) : CharSet :=
  match waiting with
  | none => right
  | some (.intersection, left) => .intersection left right
  | some (.difference, left) => left.difference right
  | some (.symmetricDifference, left) => left.symmetricDifference right

/-- A bracket expression that is still open. -/
structure OpenSet where
  negated : Bool
  items : CharSet := .none
  waiting : Option (SetOperation × CharSet) := none

/-- Close a bracket expression. -/
def OpenSet.close (set : OpenSet) : CharSet :=
  let body := SetOperation.finish set.waiting set.items
  if set.negated then .complement body else body

/-- Begin a bracket expression: a caret negates it, and hyphens and one closing bracket at its
front stand for themselves. -/
def openSet (chars : List Char) : OpenSet × List Char :=
  let (negated, chars) := match chars with
    | '^' :: rest => (true, rest)
    | _ => (false, chars)
  let hyphens := chars.takeWhile (· == '-')
  let chars := chars.drop hyphens.length
  if !hyphens.isEmpty then (⟨negated, .single '-', none⟩, chars)
  else match chars with
    | ']' :: rest => (⟨negated, .single ']', none⟩, rest)
    | _ => (⟨negated, .none, none⟩, chars)

/-- The rest of a bracket expression, with the expressions around it. -/
def readSet (fuel : Nat) (set : OpenSet) (outer : List OpenSet) (chars : List Char) :
    Option (CharSet × List Char) :=
  match fuel with
  | 0 => none
  | fuel + 1 =>
    let keep (part : CharSet) (rest : List Char) :=
      readSet fuel { set with items := .union set.items part } outer rest
    let operation (kind : SetOperation) (rest : List Char) :=
      let left := SetOperation.finish set.waiting set.items
      readSet fuel { set with items := .none, waiting := some (kind, left) } outer rest
    match chars with
    | [] => none
    | '[' :: rest =>
      match readNamedClass rest with
      | some (part, rest) => keep part rest
      | none =>
        let (inner, rest) := openSet rest
        readSet fuel inner (set :: outer) rest
    | ']' :: rest =>
      match outer with
      | [] => some (set.close, rest)
      | around :: outer =>
        readSet fuel { around with items := .union around.items set.close } outer rest
    | '&' :: '&' :: rest => operation .intersection rest
    | '-' :: '-' :: rest => operation .difference rest
    | '~' :: '~' :: rest => operation .symmetricDifference rest
    | _ =>
      match readRange chars with
      | some (part, rest) => keep part rest
      | none => none

/-! ## Repetition bounds -/

/-- A decimal bound between optional blanks. -/
def readBound (chars : List Char) : Option (Nat × List Char) :=
  let chars := Text.dropBlank chars
  let digits := chars.takeWhile Char.isDigit
  if digits.isEmpty then none
  else
    let bound := digits.foldl (fun n d => n * 10 + (d.toNat - '0'.toNat)) 0
    if bound < UInt32.size then some (bound, Text.dropBlank (chars.drop digits.length)) else none

/-- The bounds of a counted repetition, after its opening brace. -/
def readBounds (chars : List Char) : Option ((Nat × Option Nat) × List Char) := do
  let (least, rest) ← readBound chars
  match rest with
  | '}' :: rest => some ((least, some least), rest)
  | ',' :: '}' :: rest => some ((least, none), rest)
  | ',' :: rest =>
    let (most, rest) ← readBound rest
    match rest with
    | '}' :: rest => if least ≤ most then some ((least, some most), rest) else none
    | _ => none
  | _ => none

/-! ## Groups -/

/-- A group that is still open: its finished alternatives and the items of the current one, both
last first.  Each item says whether it may be repeated. -/
structure OpenGroup where
  flags : Flags
  alternatives : List Pattern := []
  items : List (Pattern × Bool) := []

namespace OpenGroup

/-- The current alternative as one pattern. -/
def current (group : OpenGroup) : Pattern :=
  group.items.foldl (fun rest item => match rest with
    | .empty => item.1
    | rest => .sequence item.1 rest) .empty

/-- All alternatives as one pattern. -/
def close (group : OpenGroup) : Pattern :=
  group.alternatives.foldl (fun rest earlier => .alternative earlier rest) group.current

/-- Add an item that may be repeated. -/
def add (group : OpenGroup) (item : Pattern) : OpenGroup :=
  { group with items := (item, true) :: group.items }

/-- Repeat the last item. -/
def repeatLast? (group : OpenGroup) (least : Nat) (most : Option Nat) : Option OpenGroup :=
  match group.items with
  | (body, true) :: items =>
    some { group with items := (.repetition body least most, true) :: items }
  | _ => none

/-- Go on to the next alternative. -/
def next (group : OpenGroup) : OpenGroup :=
  { group with alternatives := group.current :: group.alternatives, items := [] }

end OpenGroup

/-- Read switches up to the end of a group head.  Those after a hyphen are turned off; none is given
twice, and the hyphen does not come last. -/
def readFlags (flags : Flags) (seen : List Char) :
    List Char → Option (Flags × Char × List Char)
  | [] => none
  | c :: rest =>
    if c = ':' ∨ c = ')' then
      if seen.head? = some '-' then none else some (flags, c, rest)
    else if seen.contains c then none
    else
      let on := !seen.contains '-'
      match c with
      | 'i' => readFlags { flags with anyCase := on } (c :: seen) rest
      | 'm' => readFlags { flags with multiLine := on } (c :: seen) rest
      | 's' => readFlags { flags with dotAll := on } (c :: seen) rest
      | 'u' | 'U' | 'R' | '-' => readFlags flags (c :: seen) rest
      | _ => none

/-- Read the name of a group up to its closing bracket.  No other group may have it. -/
def readGroupName (names : List (List Char)) (chars : List Char) :
    Option (List Char × List Char) :=
  let name := chars.takeWhile (· != '>')
  let lawful := match name with
    | [] => false
    | first :: rest => (first == '_' || first.isAlpha) &&
        rest.all fun c => c == '_' || c == '.' || c == '[' || c == ']' || c.isAlphanum
  match chars.drop name.length with
  | '>' :: rest => if lawful && !names.contains name then some (name, rest) else none
  | _ => none

/-- Skip the mark that makes a repetition lazy; it does not change whether there is a match. -/
def dropLazy : List Char → List Char
  | '?' :: rest => rest
  | chars => chars

/-- The set of one literal under the switches. -/
def literal (flags : Flags) (c : Char) : Pattern := .one (.single c) flags.anyCase

/-- Read the rest of a pattern, with the names of all groups so far and the open groups around the
current one. -/
def readFrom (fuel : Nat) (names : List (List Char)) (group : OpenGroup) (outer : List OpenGroup)
    (chars : List Char) : Option Pattern :=
  match fuel with
  | 0 => none
  | fuel + 1 =>
    match chars with
    | [] => if outer.isEmpty then some group.close else none
    | c :: rest =>
      match c with
      | '(' =>
        let opened (flags : Flags) (rest : List Char) :=
          readFrom fuel names { flags := flags } (group :: outer) rest
        let named (rest : List Char) := do
          let (name, rest) ← readGroupName names rest
          readFrom fuel (name :: names) { flags := group.flags } (group :: outer) rest
        match rest with
        | '?' :: 'P' :: '<' :: rest => named rest
        | '?' :: '<' :: rest => named rest
        | '?' :: rest =>
          match rest with
          | ')' :: _ => none
          | _ =>
            match readFlags group.flags [] rest with
            | none => none
            | some (flags, ':', rest) => opened flags rest
            | some (flags, _, rest) =>
              let items := (Pattern.empty, false) :: group.items
              readFrom fuel names { group with flags := flags, items := items } outer rest
        | _ => opened group.flags rest
      | ')' =>
        match outer with
        | [] => none
        | around :: outer => readFrom fuel names (around.add group.close) outer rest
      | '|' => readFrom fuel names group.next outer rest
      | '[' => do
        let (set, rest) := openSet rest
        let (set, rest) ← readSet (rest.length + 1) set [] rest
        readFrom fuel names (group.add (.one set group.flags.anyCase)) outer rest
      | '.' =>
        let set := if group.flags.dotAll then .complement .none else .complement (.single '\n')
        readFrom fuel names (group.add (.one set false)) outer rest
      | '^' =>
        let kind := if group.flags.multiLine then .lineStart else .textStart
        readFrom fuel names (group.add (.edge kind)) outer rest
      | '$' =>
        let kind := if group.flags.multiLine then .lineEnd else .textEnd
        readFrom fuel names (group.add (.edge kind)) outer rest
      | '*' => do readFrom fuel names (← group.repeatLast? 0 none) outer (dropLazy rest)
      | '+' => do readFrom fuel names (← group.repeatLast? 1 none) outer (dropLazy rest)
      | '?' => do readFrom fuel names (← group.repeatLast? 0 (some 1)) outer (dropLazy rest)
      | '{' => do
        let ((least, most), rest) ← readBounds rest
        readFrom fuel names (← group.repeatLast? least most) outer (dropLazy rest)
      | '\\' => do
        let (escape, rest) ← readEscape rest
        let item := match escape with
          | .literal c => literal group.flags c
          | .set set => .one set false
          | .edge kind => .edge kind
        readFrom fuel names (group.add item) outer rest
      | _ => readFrom fuel names (group.add (literal group.flags c)) outer rest

/-- The pattern that a text describes, read with or without regard to letter case. -/
def read? (anyCase : Bool) (text : String) : Option Pattern :=
  let chars := text.toList
  readFrom (chars.length + 1) [] { flags := { anyCase := anyCase } } [] chars

end SheetCompiler.Pattern
