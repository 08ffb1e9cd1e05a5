import SheetCompiler.Files.FileTree

/-!
# File patterns

A file pattern is a path with wildcards.  `?` stands for any character, `*` for any characters, and
brackets for a character of a set or, after an exclamation mark, outside of one; `**` is a part of
its own and stands for any number of directories below.  Patterns are matched part by part against
the names in directories, and a part without wildcards is looked up as it is.

`FilePattern.read` reads a pattern and `FilePattern.expand` finds what it matches in a file tree.
-/

namespace SheetCompiler

/-- Why a pattern cannot be read. -/
inductive PatternFlaw where
  | manyStars
  | recursiveInName
  | openSet
  deriving DecidableEq

namespace PatternFlaw

/-- What is wrong. -/
def message : PatternFlaw → String
  | manyStars => "wildcards are either regular \x60*\x60 or recursive \x60**\x60"
  | recursiveInName => "recursive wildcards must form a single path component"
  | openSet => "invalid range pattern"

end PatternFlaw

/-- A flaw of a pattern and the number of characters before it. -/
structure PatternFault where
  position : Nat
  flaw : PatternFlaw
  deriving DecidableEq

namespace PatternFault

/-- What is wrong, and where. -/
def message (fault : PatternFault) : String :=
  s!"Pattern syntax error near position {fault.position}: {fault.flaw.message}"

end PatternFault

namespace FilePattern

/-! ## Tokens -/

/-- Characters of a set: one, or all between two. -/
inductive Member where
  | single (c : Char)
  | between (first last : Char)
  deriving DecidableEq

/-- What a name is matched against, one token after another. -/
inductive Token where
  | char (c : Char)
  | anyChar
  | anyChars
  | recursive
  | within (members : List Member)
  | outside (members : List Member)
  deriving DecidableEq

namespace Member

/-- Whether a character belongs to a member. -/
def holds (c : Char) : Member → Bool
  | single d => c == d
  | between first last => first.toNat ≤ c.toNat && c.toNat ≤ last.toNat

end Member

/-- The members that are written between brackets. -/
def membersOf : List Char → List Member
  | first :: '-' :: last :: rest => .between first last :: membersOf rest
  | c :: rest => .single c :: membersOf rest
  | [] => []

/-- A set at the front of what follows an opening bracket, and its length.  The character at its
front belongs to it whatever it is. -/
def readSet? : List Char → Option (Token × Nat)
  | '!' :: c :: rest =>
    if rest.contains ']' then
      let inner := c :: rest.takeWhile fun d => d != ']'
      some (.outside (membersOf inner), inner.length + 2)
    else none
  | '!' :: [] => none
  | c :: rest =>
    if rest.contains ']' then
      let inner := c :: rest.takeWhile fun d => d != ']'
      some (.within (membersOf inner), inner.length + 1)
    else none
  | [] => none

/-- Whether a part of the path starts or ends next to this character, or next to none. -/
def atBorder : Option Char → Bool
  | none => true
  | some c => c == FilePath.separator

/-- Read the tokens of a pattern from a position on, with the character before it. -/
def readTokens (position : Nat) (before : Option Char) :
    (fuel : Nat) → List Char → Except PatternFault (List Token)
  | _, [] => .ok []
  | 0, _ :: _ => .ok []
  | fuel + 1, c :: rest =>
    if c = '?' then
      (readTokens (position + 1) (some c) fuel rest).map (.anyChar :: ·)
    else if c = '*' then
      let more := rest.takeWhile fun d => d == '*'
      let after := rest.drop more.length
      match more.length with
      | 0 => (readTokens (position + 1) (some c) fuel rest).map (.anyChars :: ·)
      | 1 =>
        if !atBorder before then .error ⟨position - 1, .recursiveInName⟩
        else
          match after with
          | [] => .ok [.recursive]
          | d :: others =>
            if atBorder (some d) then
              (readTokens (position + 3) (some d) fuel others).map (.recursive :: ·)
            else .error ⟨position + 2, .recursiveInName⟩
      | _ => .error ⟨position + 2, .manyStars⟩
    else if c = '[' then
      match readSet? rest with
      | none => .error ⟨position, .openSet⟩
      | some (token, size) =>
        (readTokens (position + 1 + size) (some ']') fuel (rest.drop size)).map (token :: ·)
    else (readTokens (position + 1) (some c) fuel rest).map (.char c :: ·)

/-- Read the tokens of a pattern. -/
def tokens (chars : List Char) : Except PatternFault (List Token) :=
  readTokens 0 none chars.length chars

/-! ## Matching names -/

/-- Whether a character satisfies a token that stands for one character. -/
def Token.accepts (c : Char) : Token → Bool
  | char d => c == d
  | anyChar => true
  | within members => members.any (Member.holds c)
  | outside members => !members.any (Member.holds c)
  | anyChars | recursive => false

/-- Whether some rest of a name, the whole included, satisfies a condition. -/
def anyRest (condition : List Char → Bool) : List Char → Bool
  | [] => condition []
  | c :: rest => condition (c :: rest) || anyRest condition rest

/-- Whether a name matches tokens. -/
def matchesName : List Token → List Char → Bool
  | [], name => name.isEmpty
  | .anyChars :: tokens, name => anyRest (matchesName tokens) name
  | .recursive :: tokens, name => anyRest (matchesName tokens) name
  | token :: tokens, name =>
    match name with
    | [] => false
    | c :: rest => token.accepts c && matchesName tokens rest

/-! ## Parts -/

/-- A part of a pattern. -/
inductive Part where
  /-- A name without wildcards. -/
  | literal (name : String)
  /-- Any directories below. -/
  | recursive
  /-- A name with wildcards. -/
  | wild (tokens : List Token)
  deriving DecidableEq

/-- The text of tokens that are all characters. -/
def literal? : List Token → Option (List Char)
  | [] => some []
  | .char c :: rest => (literal? rest).map (c :: ·)
  | _ :: _ => none

/-- The part that tokens make. -/
def partOf (tokens : List Token) : Part :=
  match literal? tokens with
  | some chars => .literal (String.ofList chars)
  | none => if tokens.contains .recursive then .recursive else .wild tokens

/-- The pieces of a pattern between separators.  A separator at the end adds none. -/
def pieces (chars : List Char) : List (List Char) :=
  let all := Text.cut FilePath.separator chars
  if all.getLast? = some [] then all.dropLast else all

/-- Any directories below any directories are any directories. -/
def collapse : List Part → List Part
  | .recursive :: .recursive :: rest => collapse (.recursive :: rest)
  | part :: rest => part :: collapse rest
  | [] => []

/-- A pattern: where it starts, its parts, and whether only directories match. -/
structure Reading where
  start : FilePath
  parts : List Part
  directories : Bool
  deriving DecidableEq

/-- Read a pattern: first as a whole, then part by part. -/
def read (pattern : String) : Except PatternFault Reading :=
  let chars := pattern.toList
  let body := chars.dropWhile fun c => c == FilePath.separator
  match tokens chars with
  | .error fault => .error fault
  | .ok _ =>
    match (pieces body).mapM tokens with
    | .error fault => .error fault
    | .ok parts =>
      .ok {
        start := if body.length < chars.length then ⟨"/"⟩ else ⟨"."⟩
        parts := collapse (parts.map partOf)
        directories := chars.getLast? = some FilePath.separator }

/-! ## Finding matches -/

/-- The path of a name in a directory; the current directory is not written. -/
def inside (directory : FilePath) (name : String) : FilePath :=
  if directory.same ⟨"."⟩ then ⟨name⟩ else directory.join ⟨name⟩

/-- Whether a name is one of the two that every directory holds. -/
def isSpecial (name : String) : Bool := name == "." || name == ".."

/-- Whether a path is looked up for a part without wildcards. -/
def literalExists (tree : FileTree) (directory inner : FilePath) (name : String) : Bool :=
  if isSpecial name then tree.isDirectory directory else tree.exists? inner

/-- The two special entries of a directory, where tokens that begin with a dot match them. -/
def specials (tokens : List Token) (directory : FilePath) : List FilePath :=
  if tokens.head? = some (.char '.') then
    ([".", ".."].filter fun name => matchesName tokens name.toList).map fun name =>
      directory.join ⟨name⟩
  else []

/-- The entries of a directory, by path and name. -/
def entries (tree : FileTree) (directory : FilePath) : List (FilePath × String) :=
  (tree.names directory).map fun name => (inside directory name, name)

/-- All entries below a directory, down to a number of levels. -/
def entriesBelow (tree : FileTree) : (levels : Nat) → FilePath → List (FilePath × String)
  | 0, _ => []
  | levels + 1, directory =>
    (entries tree directory).flatMap fun entry => entry :: entriesBelow tree levels entry.1

/-- Whether a name matches a part. -/
def Part.accepts (name : String) : Part → Bool
  | literal text => name == text
  | recursive => false
  | wild tokens => matchesName tokens name.toList

/-- The paths that the parts of a pattern lead to from a directory. -/
def expandFrom (tree : FileTree) : List Part → FilePath → List FilePath
  | [], path => [path]
  | .literal name :: parts, directory =>
    let inner := inside directory name
    if literalExists tree directory inner name then expandFrom tree parts inner else []
  | .wild tokens :: parts, directory =>
    (specials tokens directory).flatMap (expandFrom tree parts) ++
      (entries tree directory).flatMap fun entry =>
        if matchesName tokens entry.2.toList then expandFrom tree parts entry.1 else []
  | [.recursive], directory =>
    ((entriesBelow tree tree.depth directory).filter fun entry =>
      tree.isDirectory entry.1).map Prod.fst
  | .recursive :: part :: parts, directory =>
    (entriesBelow tree tree.depth directory).flatMap fun entry =>
      if part.accepts entry.2 then expandFrom tree parts entry.1 else []

/-- Everything in a file tree that a pattern matches. -/
def expand (tree : FileTree) (pattern : Reading) : List FilePath :=
  let found := expandFrom tree pattern.parts pattern.start
  if pattern.directories then found.filter tree.isDirectory else found

/-- Whether a path is a pattern at all. -/
def isPattern (path : FilePath) : Bool :=
  path.text.toList.any fun c => c == '*' || c == '?' || c == '['

end FilePattern

end SheetCompiler
