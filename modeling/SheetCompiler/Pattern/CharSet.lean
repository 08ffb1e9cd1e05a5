import SheetCompiler.Text.Blank
import SheetCompiler.Text.CaseRuns
import SheetCompiler.Pattern.CharRanges

/-!
# Character sets of patterns

The sets that a bracket expression or a class escape describes, as a small language of ranges,
named classes and Boolean operations, with membership by recursion.

Letter case is disregarded at the leaves.  A character then belongs to a range when some character
of its case family does; since this happens before complements are taken, a set and its complement
still share no character.
-/

namespace SheetCompiler.Pattern

open SheetCompiler.Text

/-- A set of characters. -/
inductive CharSet where
  | none
  | range (first last : Nat)
  | word
  | digit
  | blank
  | complement (set : CharSet)
  | union (a b : CharSet)
  | intersection (a b : CharSet)
  deriving Inhabited

/-- The code points that differ from a given one at most in letter case. -/
def caseFamily (code : Nat) : List Nat :=
  let key := CaseRun.apply foldRuns code
  code :: key :: CaseRun.sources foldRuns key

namespace CharSet

/-- The set of one character. -/
def single (c : Char) : CharSet := range c.toNat c.toNat

/-- The union of some ranges. -/
def ofRanges (ranges : List (Char × Char)) : CharSet :=
  ranges.foldl (fun set pair => union set (range pair.1.toNat pair.2.toNat)) none

/-- What is in the first set and not in the second. -/
def difference (a b : CharSet) : CharSet := intersection a (complement b)

/-- What is in exactly one of two sets. -/
def symmetricDifference (a b : CharSet) : CharSet := union (difference a b) (difference b a)

/-- Membership, with or without regard to letter case. -/
def has (anyCase : Bool) (c : Char) : CharSet → Bool
  | none => false
  | range first last =>
    if anyCase then (caseFamily c.toNat).any fun code => first ≤ code && code ≤ last
    else first ≤ c.toNat && c.toNat ≤ last
  | word => inRanges wordRanges c.toNat
  | digit => inRanges digitRanges c.toNat
  | blank => isBlank c
  | complement set => !has anyCase c set
  | union a b => has anyCase c a || has anyCase c b
  | intersection a b => has anyCase c a && has anyCase c b

end CharSet

end SheetCompiler.Pattern
