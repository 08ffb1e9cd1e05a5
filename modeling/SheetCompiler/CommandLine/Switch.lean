/-!
# Switches of the command line

A switch is written with two hyphens and its name, or with one hyphen and its letter.  It may take a
value.  Which switches may be used depends on the level of the command line: the top level, or one of
the commands.
-/

namespace SheetCompiler

/-- The levels of a command line. -/
inductive Level where
  | top
  | convert
  | schema
  | query
  deriving DecidableEq

/-- The switches of all levels. -/
inductive Switch where
  | verbose
  | quiet
  | help
  | version
  | output
  | config
  | strict
  | caseSensitive
  | keyword
  | pretty
  | jobs
  | failFast
  deriving DecidableEq

namespace Switch

/-- The name behind two hyphens. -/
def name : Switch → String
  | verbose => "verbose"
  | quiet => "quiet"
  | help => "help"
  | version => "version"
  | output => "output"
  | config => "config"
  | strict => "strict"
  | caseSensitive => "case-sensitive"
  | keyword => "keyword"
  | pretty => "pretty"
  | jobs => "jobs"
  | failFast => "fail-fast"

/-- The letter behind one hyphen. -/
def letter? : Switch → Option Char
  | verbose => some 'v'
  | quiet => some 'q'
  | help => some 'h'
  | version => some 'V'
  | output => some 'o'
  | jobs => some 'j'
  | _ => none

/-- Whether a value follows. -/
def takesValue : Switch → Bool
  | output | config | keyword | jobs => true
  | _ => false

end Switch

namespace Level

/-- The commands, by name. -/
def commands : List (String × Level) := [("convert", convert), ("schema", schema), ("query", query)]

/-- The name that asks for help on a command. -/
def helpName : String := "help"

/-- How a command reads worksheets. -/
def readingSwitches : List Switch := [.config, .strict, .caseSensitive, .keyword]

/-- The switches of a level. -/
def switches : Level → List Switch
  | top => [.verbose, .quiet, .help, .version]
  | convert => [.output] ++ readingSwitches ++ [.pretty, .jobs, .failFast, .verbose, .quiet, .help]
  | schema | query => readingSwitches ++ [.verbose, .quiet, .help]

/-- The switch with a name. -/
def named? (level : Level) (name : String) : Option Switch :=
  level.switches.find? fun switch => switch.name == name

/-- The switch with a letter. -/
def lettered? (level : Level) (letter : Char) : Option Switch :=
  level.switches.find? fun switch => switch.letter? == some letter

/-- The least number of operands. -/
def leastOperands : Level → Nat
  | top => 0
  | convert | schema => 1
  | query => 2

/-- The greatest number of operands, if there is one. -/
def mostOperands? : Level → Option Nat
  | top => some 0
  | convert => none
  | schema => some 1
  | query => some 2

end Level

end SheetCompiler
