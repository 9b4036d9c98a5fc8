import RuleLang.Check

/-!
# Command-line arguments

What a command line asks for (`Invocation.ofArguments?`). After the name of a command, options and
operands may be mixed; two dashes end the options, and a single dash is an operand. One-letter
options may share a dash, the last of them with its value. An option other than `-v` may be given
once, and `-v` may stand before the command too. It counts there only if it does not stand behind.

A command line that does not follow these rules asks for nothing.
-/

namespace RuleLang

/-- What a command line may ask for. -/
inductive Request where
  | version
  | check (expressions : List String) (options : CheckOptions) (json : Bool)
  | samples (engine : Engine)
  | overview
  | page (name : String)

/-- A request, and how much of the log is wanted with it. -/
structure Invocation where
  verbosity : Nat
  request : Request

/-- The commands. -/
inductive Command where
  | check
  | demo
  | docs
  | doc
deriving DecidableEq, Repr

namespace Command

/-- The command of the given name. -/
def ofName? : String → Option Command
  | "check" => some check
  | "demo" => some demo
  | "docs" => some docs
  | "doc" => some doc
  | _ => none

/-- Whether a command has an engine to choose. -/
def takesEngine : Command → Bool
  | check | demo => true
  | docs | doc => false

/-- Whether a command has the options of `check`. -/
def takesFormat : Command → Bool
  | check => true
  | demo | docs | doc => false

/-- Whether a command may be given so many operands. -/
def takesOperands : Command → (count : Nat) → Bool
  | check, _ => true
  | demo, count | docs, count => count = 0
  | doc, count => count = 1

end Command

/-- The options and operands given so far. -/
structure Settings where
  verbosity : Nat := 0
  engine : Option Engine := none
  json : Bool := false
  parseOnly : Bool := false
  operands : List String := []

namespace Settings

variable (command : Command) (settings : Settings)

/-- The option for the log, which may be repeated. -/
def raiseVerbosity : Settings :=
  { settings with verbosity := settings.verbosity + 1 }

/-- The option for the engine. -/
def setEngine? (name : String) : Option Settings := do
  guard (command.takesEngine && settings.engine.isNone)
  return { settings with engine := some (← Engine.ofName? name) }

/-- The option for JSON output. -/
def setJson? : Option Settings := do
  guard (command.takesFormat && !settings.json)
  return { settings with json := true }

/-- The option for parsing alone. -/
def setParseOnly? : Option Settings := do
  guard (command.takesFormat && !settings.parseOnly)
  return { settings with parseOnly := true }

/-- The options of some letters behind one dash, and whether the last of them still needs its
value. -/
def readLetters? (settings : Settings) : List Char → Option (Settings × Bool)
  | [] => some (settings, false)
  | ['e'] => some (settings, true)
  | 'e' :: '=' :: name => do return (← settings.setEngine? command (String.ofList name), false)
  | 'e' :: name => do return (← settings.setEngine? command (String.ofList name), false)
  | 'v' :: letters => readLetters? settings.raiseVerbosity letters
  | 'j' :: letters => do readLetters? (← settings.setJson? command) letters
  | _ => none

/-- The option of a word behind two dashes, and whether it still needs its value. -/
def readWord? (word : List Char) : Option (Settings × Bool) :=
  match String.ofList (word.takeWhile (· ≠ '=')), word.dropWhile (· ≠ '=') with
  | "engine", [] => some (settings, true)
  | "engine", _ :: name => do return (← settings.setEngine? command (String.ofList name), false)
  | "verbose", [] => some (settings.raiseVerbosity, false)
  | "json", [] => do return (← settings.setJson? command, false)
  | "syntax-only", [] => do return (← settings.setParseOnly? command, false)
  | _, _ => none

/-- The option or the operand of one argument, and whether it still needs its value. -/
def readArgument? (argument : String) : Option (Settings × Bool) :=
  match argument.toList with
  | '-' :: '-' :: word => settings.readWord? command word
  | '-' :: letter :: letters => settings.readLetters? command (letter :: letters)
  | _ => some ({ settings with operands := settings.operands ++ [argument] }, false)

/-- The options and operands of the arguments after the name of a command. -/
def readArguments? (settings : Settings) : List String → Option Settings
  | [] => some settings
  | "--" :: operands => some { settings with operands := settings.operands ++ operands }
  | argument :: arguments => do
    let (settings, needsValue) ← settings.readArgument? command argument
    if needsValue then
      match arguments with
      | [] => none
      | name :: arguments => readArguments? (← settings.setEngine? command name) arguments
    else
      readArguments? settings arguments

/-- The request of a command with options and operands. -/
def request? : Option Request := do
  guard (command.takesOperands settings.operands.length)
  let engine := settings.engine.getD .tree
  match command, settings.operands with
  | .check, expressions =>
    return .check expressions { engine, parseOnly := settings.parseOnly } settings.json
  | .demo, _ => return .samples engine
  | .docs, _ => return .overview
  | .doc, name :: _ => return .page name
  | .doc, [] => none

end Settings

namespace Invocation

/-- Options in front of the command: `none` if one of them is not for there, and `some none` if one
of them asks for the version, whatever follows. -/
def readLetters? (verbosity : Nat) : List Char → Option (Option Nat)
  | [] => some (some verbosity)
  | 'v' :: letters => readLetters? (verbosity + 1) letters
  | 'V' :: _ => some none
  | _ => none

/-- What the arguments ask for, after `verbosity` options for the log. -/
def ofArguments? (verbosity : Nat) : List String → Option Invocation
  | [] => none
  | argument :: arguments =>
    match argument.toList with
    | '-' :: '-' :: word =>
      match String.ofList word with
      | "verbose" => ofArguments? (verbosity + 1) arguments
      | "version" => some { verbosity, request := .version }
      | _ => none
    | '-' :: letter :: letters =>
      match readLetters? verbosity (letter :: letters) with
      | some (some verbosity) => ofArguments? verbosity arguments
      | some none => some { verbosity, request := .version }
      | none => none
    | _ => do
      let command ← Command.ofName? argument
      let settings ← Settings.readArguments? command {} arguments
      -- The count behind the command replaces the count in front, it does not add to it.
      let verbosity := if settings.verbosity = 0 then verbosity else settings.verbosity
      return { verbosity, request := ← settings.request? command }

end Invocation

end RuleLang
