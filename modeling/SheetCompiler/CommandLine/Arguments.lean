import SheetCompiler.CommandLine.Switch
import SheetCompiler.Files.FilePath

/-!
# Command-line arguments

A command line is a list of words: switches, which begin with hyphens, and operands.  The first
operand of the top level is the name of a command, and all words behind it belong to that command.
After a word of two hyphens alone all words are operands.

Words are taken one after another (`Line.take`).  A switch with a value and the operands are held back
as `Held` until the next word that is neither, since the value may still follow; only then are they
checked and kept.  A switch that is not known is a fault before anything that is held back.  At the
end of a level switches that exclude each other are found, and then missing operands.

`Arguments.read` reads a whole command line.
-/

namespace SheetCompiler

/-- Why words are no command line, or what they ask for instead of a command. -/
inductive UsageFault where
  | help
  | version
  | unknownSwitch
  | unknownCommand
  | unexpectedValue
  | missingValue
  | badValue
  | conflict
  | missingOperand
  deriving DecidableEq

/-- What has been kept of the words of a level. -/
structure Kept where
  /-- How often more messages were asked for. -/
  verbose : Nat := 0
  quiet : Bool := false
  output : Option String := none
  config : Option String := none
  strict : Bool := false
  caseSensitive : Bool := false
  keywords : List String := []
  pretty : Bool := false
  jobs : Option Nat := none
  failFast : Bool := false
  operands : List String := []
  deriving DecidableEq

/-- What is held back: a switch and perhaps its value, or operands. -/
inductive Held where
  | nothing
  | switch (switch : Switch) (value : Option String)
  | operands (words : List String)
  deriving DecidableEq

/-- The words of a level, as far as they have been taken. -/
structure Line where
  level : Level
  kept : Kept := {}
  held : Held := .nothing
  /-- Whether all further words are operands. -/
  operandsOnly : Bool := false
  deriving DecidableEq

/-! ## Values -/

namespace UsageFault

/-- The number that decimal digits write. -/
def readDigits (value : Nat) : List Char → Option Nat
  | [] => some value
  | c :: rest =>
    if '0'.toNat ≤ c.toNat ∧ c.toNat ≤ '9'.toNat then
      readDigits (value * 10 + (c.toNat - '0'.toNat)) rest
    else none

/-- A number of 64 bits, perhaps behind a plus sign. -/
def readNumber (text : String) : Except UsageFault Nat :=
  let digits :=
    match text.toList with
    | '+' :: rest => rest
    | chars => chars
  match digits, readDigits 0 digits with
  | _ :: _, some n => if n < UInt64.size then .ok n else .error .badValue
  | _, _ => .error .badValue

end UsageFault

namespace Kept

/-- The most that messages can be asked for. -/
def verboseMax : Nat := 255

/-- Keep a switch without a value. -/
def addSwitch (kept : Kept) : Switch → Except UsageFault Kept
  | .verbose => .ok { kept with verbose := min (kept.verbose + 1) verboseMax }
  | .quiet => if kept.quiet then .error .conflict else .ok { kept with quiet := true }
  | .strict => if kept.strict then .error .conflict else .ok { kept with strict := true }
  | .caseSensitive =>
    if kept.caseSensitive then .error .conflict else .ok { kept with caseSensitive := true }
  | .pretty => if kept.pretty then .error .conflict else .ok { kept with pretty := true }
  | .failFast => if kept.failFast then .error .conflict else .ok { kept with failFast := true }
  | .help => .error .help
  | .version => .error .version
  | .output | .config | .keyword | .jobs => .error .missingValue

/-- Keep a switch with its value.  Only keywords may be given more than once. -/
def addValue (kept : Kept) (value : String) : Switch → Except UsageFault Kept
  | .output =>
    if kept.output.isSome then .error .conflict
    else if value.isEmpty then .error .missingValue else .ok { kept with output := some value }
  | .config =>
    if kept.config.isSome then .error .conflict
    else if value.isEmpty then .error .missingValue else .ok { kept with config := some value }
  | .jobs =>
    if kept.jobs.isSome then .error .conflict
    else (UsageFault.readNumber value).map fun n => { kept with jobs := some n }
  | .keyword => .ok { kept with keywords := kept.keywords ++ [value] }
  | _ => .error .unexpectedValue

/-- Whether an operand at a place names a file. -/
def namesFile (level : Level) (place : Nat) : Bool := level != .query || place == 0

/-- Keep operands.  The names of files are not empty. -/
def addOperands (level : Level) (kept : Kept) : List String → Except UsageFault Kept
  | [] => .ok kept
  | word :: rest =>
    if word.isEmpty && namesFile level kept.operands.length then .error .missingValue
    else addOperands level { kept with operands := kept.operands ++ [word] } rest

end Kept

namespace Line

/-! ## Taking words -/

/-- Keep what is held back. -/
def settle (line : Line) : Except UsageFault Line :=
  match line.held with
  | .nothing => .ok line
  | .switch _ none => .error .missingValue
  | .switch switch (some value) =>
    (line.kept.addValue value switch).map fun kept => { line with kept := kept, held := .nothing }
  | .operands words =>
    (line.kept.addOperands line.level words).map fun kept =>
      { line with kept := kept, held := .nothing }

/-- Keep a switch without a value. -/
def useSwitch (line : Line) (switch : Switch) : Except UsageFault Line := do
  let line ← line.settle
  return { line with kept := ← line.kept.addSwitch switch }

/-- Keep a switch with its value. -/
def useValue (line : Line) (switch : Switch) (value : String) : Except UsageFault Line := do
  let line ← line.settle
  return { line with kept := ← line.kept.addValue value switch }

/-- Hold back a switch whose value follows. -/
def await (line : Line) (switch : Switch) : Except UsageFault Line := do
  return { ← line.settle with held := .switch switch none }

/-- Take a switch by name, and what follows an equals sign behind it. -/
def takeNamed (line : Line) (name : String) (attached : Option String) :
    Except UsageFault Line :=
  match line.level.named? name, attached with
  | none, _ => .error .unknownSwitch
  | some switch, none => if switch.takesValue then line.await switch else line.useSwitch switch
  | some switch, some value =>
    if switch.takesValue then line.useValue switch value else .error .unexpectedValue

/-- Take switches by their letters.  What follows the letter of a switch with a value is its value,
without an equals sign at its front. -/
def takeLetters (line : Line) : List Char → Except UsageFault Line
  | [] => .ok line
  | letter :: rest =>
    match line.level.lettered? letter with
    | none => .error .unknownSwitch
    | some switch =>
      if !switch.takesValue then do takeLetters (← line.useSwitch switch) rest
      else
        match rest with
        | [] => line.await switch
        | '=' :: value => line.useValue switch (String.ofList value)
        | value => line.useValue switch (String.ofList value)

/-- The number of operands, those that are held back included. -/
def operandCount (line : Line) : Nat :=
  line.kept.operands.length +
    match line.held with
    | .operands words => words.length
    | _ => 0

/-- The fault of an operand that has no place. -/
def strayOperand (line : Line) (word : String) : UsageFault :=
  if line.level = .top ∧
      !(line.operandsOnly && (word == Level.helpName || (Level.commands.lookup word).isSome)) then
    .unknownCommand
  else .unknownSwitch

/-- Take an operand.  Where their number is not bounded, operands are held back together. -/
def takeOperand (line : Line) (word : String) : Except UsageFault Line :=
  match line.level.mostOperands?, line.held with
  | none, .operands words => .ok { line with held := .operands (words ++ [word]) }
  | none, _ => do return { ← line.settle with held := .operands [word] }
  | some most, _ =>
    if line.operandCount < most then do return { ← line.settle with held := .operands [word] }
    else .error (line.strayOperand word)

/-- Take a word that is not, or not known to be, a switch. -/
def takePlain (line : Line) (word : String) : Except UsageFault Line :=
  match line.operandsOnly, line.held with
  | false, .switch switch none => .ok { line with held := .switch switch (some word) }
  | _, _ => line.takeOperand word

/-- Cut a word at its first equals sign. -/
def cutAtEquals (chars : List Char) : String × Option String :=
  let name := String.ofList (chars.takeWhile fun c => c != '=')
  match chars.dropWhile fun c => c != '=' with
  | [] => (name, none)
  | _ :: value => (name, some (String.ofList value))

/-- Take a word. -/
def take (line : Line) (word : String) : Except UsageFault Line :=
  if line.operandsOnly then line.takeOperand word
  else
    match word.toList with
    | ['-', '-'] => .ok { line with operandsOnly := true }
    | '-' :: '-' :: rest =>
      let (name, attached) := cutAtEquals rest
      line.takeNamed name attached
    | ['-'] => line.takePlain word
    | '-' :: letters => line.takeLetters letters
    | _ => line.takePlain word

/-- End a level. -/
def finish (line : Line) : Except UsageFault Kept := do
  let kept := (← line.settle).kept
  if kept.quiet && kept.verbose != 0 then throw .conflict
  if kept.operands.length < line.level.leastOperands then throw .missingOperand
  return kept

end Line

/-! ## Commands -/

/-- How worksheets are to be read. -/
structure ReadingArguments where
  /-- A file with settings. -/
  config : Option FilePath := none
  strict : Bool := false
  caseSensitive : Bool := false
  /-- Further keywords. -/
  keywords : List String := []
  deriving DecidableEq

/-- A command and what it is to do. -/
inductive Command where
  | convert (inputs : List FilePath) (output : Option FilePath) (reading : ReadingArguments)
      (pretty : Bool) (jobs : Option Nat) (failFast : Bool)
  | schema (file : FilePath) (reading : ReadingArguments)
  | query (file : FilePath) (path : String) (reading : ReadingArguments)
  deriving DecidableEq

/-- A command line. -/
structure Arguments where
  command : Option Command
  verbose : Nat
  quiet : Bool
  deriving DecidableEq

namespace Arguments

/-- Take words one after another, and end the level. -/
def readLevel (line : Line) : List String → Except UsageFault Kept
  | [] => line.finish
  | word :: rest => do readLevel (← line.take word) rest

/-- How worksheets are to be read. -/
def readingOf (kept : Kept) : ReadingArguments :=
  ⟨kept.config.map FilePath.mk, kept.strict, kept.caseSensitive, kept.keywords⟩

/-- The command of a level, with all its operands. -/
def commandOf (level : Level) (kept : Kept) : Option Command :=
  match level, kept.operands with
  | .convert, inputs =>
    some (.convert (inputs.map FilePath.mk) (kept.output.map FilePath.mk) (readingOf kept)
      kept.pretty kept.jobs kept.failFast)
  | .schema, file :: _ => some (.schema ⟨file⟩ (readingOf kept))
  | .query, file :: path :: _ => some (.query ⟨file⟩ path (readingOf kept))
  | _, _ => none

/-- What the words behind the name for help ask for: help on at most one command. -/
def readHelp : List String → UsageFault
  | [] => .help
  | [word] =>
    if word == Level.helpName || (Level.commands.lookup word).isSome then .help
    else .unknownCommand
  | _ :: _ :: _ => .unknownCommand

/-- Read the words of the top level, and those of a command.  What a command says about messages
counts before what the top level says, each switch by itself. -/
def readTop (line : Line) : List String → Except UsageFault Arguments
  | [] => do
    let kept ← line.finish
    return ⟨none, kept.verbose, kept.quiet⟩
  | word :: rest =>
    if !line.operandsOnly && word == Level.helpName then .error (readHelp rest)
    else
      match if line.operandsOnly then none else Level.commands.lookup word with
      | some level => do
        let inner ← readLevel { level := level } rest
        let outer ← line.finish
        return ⟨commandOf level inner, if inner.verbose = 0 then outer.verbose else inner.verbose,
          inner.quiet || outer.quiet⟩
      | none => do readTop (← line.take word) rest

/-- Read a command line. -/
def read (words : List String) : Except UsageFault Arguments := readTop { level := .top } words

/-- How many messages are wanted. -/
def logLevel (arguments : Arguments) : String :=
  if arguments.quiet then "error"
  else
    match arguments.verbose with
    | 0 => "info"
    | 1 => "debug"
    | _ => "trace"

/-- Whether a run tells what it does. -/
def showsProgress (arguments : Arguments) : Bool := !arguments.quiet

end Arguments

end SheetCompiler
