import SheetCompiler.Pattern.CharSet

/-!
# Patterns and where they match

A pattern is matched without trying alternatives one by one.  A text of `n` characters has `n + 1`
gaps, and a set of gaps is a list of marks.  `Pattern.advance` takes the gaps at which a match may
begin to the gaps at which it may end, by recursion on the pattern: one character moves every mark
across it, a sequence composes, an alternative joins, and a repetition adds up rounds until no mark
can be new.  The work is bounded by the size of the pattern times the square of the text, whatever
the pattern.
-/

namespace SheetCompiler.Pattern

/-- A place in a text where a pattern may insist to be. -/
inductive Edge where
  | textStart
  | textEnd
  | lineStart
  | lineEnd
  | word
  | insideWord
  | wordStart
  | wordEnd

namespace Edge

/-- Whether a neighbour of a gap is a character of a word. -/
def wordAt (neighbour : Option Char) : Bool := neighbour.any fun c => CharSet.word.has false c

/-- Whether the gap between two neighbours is such a place. -/
def holds (before after : Option Char) : Edge → Bool
  | textStart => before.isNone
  | textEnd => after.isNone
  | lineStart => before.isNone || before == some '\n'
  | lineEnd => after.isNone || after == some '\n'
  | word => wordAt before != wordAt after
  | insideWord => wordAt before == wordAt after
  | wordStart => !wordAt before && wordAt after
  | wordEnd => wordAt before && !wordAt after

end Edge

end SheetCompiler.Pattern

namespace SheetCompiler

/-- A pattern for texts. -/
inductive Pattern where
  | empty
  | one (set : Pattern.CharSet) (anyCase : Bool)
  | edge (kind : Pattern.Edge)
  | sequence (a b : Pattern)
  | alternative (a b : Pattern)
  | repetition (body : Pattern) (least : Nat) (most : Option Nat)
  deriving Inhabited

namespace Pattern

/-- A mark for every gap of a text. -/
abbrev Marks := List Bool

/-- The gaps marked in either list. -/
def join (a b : Marks) : Marks := List.zipWith (· || ·) a b

/-- The neighbours of every gap. -/
def gaps (text : List Char) : List (Option Char × Option Char) :=
  (none :: text.map some).zip (text.map some ++ [none])

/-- Repeat a step a number of times. -/
def rounds (step : Marks → Marks) : (count : Nat) → Marks → Marks
  | 0, marks => marks
  | count + 1, marks => rounds step count (step marks)

/-- Repeat a step up to a number of times, keeping every mark met on the way. -/
def anyRounds (step : Marks → Marks) : (count : Nat) → (seen marks : Marks) → Marks
  | 0, seen, _ => seen
  | count + 1, seen, marks =>
    let next := step marks
    anyRounds step count (join seen next) next

/-- From the gaps at which a match may begin to those at which it may end. -/
def advance (text : List Char) : Pattern → Marks → Marks
  | empty, marks => marks
  | one set anyCase, marks =>
    false :: List.zipWith (fun mark c => mark && set.has anyCase c) marks text
  | edge kind, marks =>
    List.zipWith (fun mark gap => mark && kind.holds gap.1 gap.2) marks (gaps text)
  | sequence a b, marks => advance text b (advance text a marks)
  | alternative a b, marks => join (advance text a marks) (advance text b marks)
  | repetition body least most, marks =>
    let start := rounds (advance text body) least marks
    let count := match most with
      | some most => min (most - least) (text.length + 1)
      | none => text.length + 1
    anyRounds (advance text body) count start start

/-- Whether the pattern matches somewhere in a text. -/
def matchesIn (pattern : Pattern) (text : String) : Bool :=
  let chars := text.toList
  (advance chars pattern (List.replicate (chars.length + 1) true)).any id

end Pattern

end SheetCompiler
