import SheetCompiler.Text.CaseRuns

/-!
# Lower case

The lower case of a text, character by character, with the two rules that no table of single
characters holds: the dotted capital I becomes a small i followed by a dot above, and a capital
sigma becomes the final sigma when it ends a word.  A sigma ends a word when the nearest character
before it that is not ignorable is a cased letter, and the nearest such character after it is not.
-/

namespace SheetCompiler.Text

/-- Letters and marks with a case. -/
def isCased (c : Char) : Bool := inRanges casedRanges c.toNat

/-- Marks and punctuation that do not end a word. -/
def isIgnorable (c : Char) : Bool := inRanges ignorableRanges c.toNat

/-- Whether a cased letter comes next, past anything ignorable. -/
def casedNext (chars : List Char) : Bool :=
  (chars.find? fun c => !isIgnorable c).any isCased

/-- The lower case of one character between what stands before it, last first, and after it. -/
def lowerChar (before : List Char) (c : Char) (after : List Char) : List Char :=
  if c = 'Σ' then
    if casedNext before && !casedNext after then ['ς'] else ['σ']
  else if c = 'İ' then ['i', '\u0307']
  else [Char.ofNat (CaseRun.apply lowerRuns c.toNat)]

/-- The lower case of the rest of a text, given what was read of it, last first. -/
def lowerFrom (before : List Char) : List Char → List Char
  | [] => []
  | c :: rest => lowerChar before c rest ++ lowerFrom (c :: before) rest

/-- The text in lower case. -/
def lowercase (text : String) : String := String.ofList (lowerFrom [] text.toList)

end SheetCompiler.Text
