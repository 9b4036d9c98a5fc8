import RuleLang.Command.Arguments
import RuleLang.Manual
import RuleLang.Samples

/-!
# What the program does

What the program does for its arguments and its input (`outcome`). A command that fails has no
output but a message, and a command line that asks for nothing gets the usage.

On the standard error the message stands below the log (`Outcome.stderr`). So a command that
succeeds may leave something there too, as where a part of an expression was left out.

The batch of `check` is its operands, or, if there are none, the lines of the input that are not
blank.
-/

namespace RuleLang

/-- What the program leaves behind. -/
structure Outcome where
  code : Nat
  stdout : String
  /-- Why the program fails, as it is told on the standard error, or nothing. -/
  message : String
  /-- The least important level that the arguments ask for. -/
  level : Level := .warn
  /-- What was noted on the way, of every level. -/
  records : List Record := []

/-- All that is on the standard error, which depends on the logger that is set up. Where none is, it
is the message alone. -/
def Outcome.stderr (outcome : Outcome) (logger : Logger := .off) : String :=
  logger.text outcome.level outcome.records ++ outcome.message

/-- Why a command fails. -/
inductive CommandError where
  /-- A batch has no reports. -/
  | check (error : CheckError)
  /-- The input is not UTF-8. -/
  | undecodableInput
  /-- The manual has no such page. -/
  | unknownPage (name : String)

def CommandError.message : CommandError → String
  | check error => error.message
  | undecodableInput => "IO error: stream did not contain valid UTF-8"
  | unknownPage name =>
    s!"Unknown category: '{name}'\nRun 'ruleval docs' to see available categories."

/-- The expressions in the input, one to a line. -/
def expressionsOf (input : ByteArray) : Except CommandError (List String) :=
  match String.fromUTF8? input with
  | none => .error .undecodableInput
  | some text => .ok ((lines text.toList |>.filter (!allBlank ·)).map String.ofList)

/-- A report as a line of output. -/
def Report.print (json : Bool) (report : Report) : String :=
  if json then Json.object report.members else report.line

/-- A sample with its value or its error, as a line of output. -/
def printSample (sample : String) : Except Error Value → String
  | .ok value => s!"{sample} => {value.text}"
  | .error e => s!"{sample} => error: {e.message}"

namespace Request

/-- Whether the request is for expressions from the input. -/
def readsInput : Request → Bool
  | check [] _ _ => true
  | _ => false

/-- What a request prints. -/
def output (input : ByteArray) : Request → Logged CommandError String
  | version => pure "ruleval 0.1.0\n"
  | check expressions options json => do
    let expressions ←
      if expressions = [] then Logged.ofExcept (expressionsOf input) else pure expressions
    .note (.checking expressions.length options.engine)
    let reports ← (RuleLang.check options expressions).mapError .check
    return unlines (reports.map (Report.print json))
  | samples engine =>
    let evaluations := evaluateSamples engine
    ⟨evaluations.flatMap (·.2.records),
      .ok (unlines (evaluations.map fun (sample, value) => printSample sample value.outcome))⟩
  | overview => pure RuleLang.overview
  | page name =>
    match Page.ofName? name with
    | some found => pure found.text
    | none => .fail (.unknownPage name)

end Request

/-- What an invocation leaves behind. -/
def Invocation.run (input : ByteArray) (invocation : Invocation) : Outcome :=
  let output := invocation.request.output input
  let level := Level.ofVerbosity invocation.verbosity
  match output.outcome with
  | .ok stdout => { code := 0, stdout, message := "", level, records := output.records }
  | .error e =>
    { code := 1, stdout := "", message := e.message ++ "\n", level, records := output.records }

/-- How the program is called. -/
def usage : String :=
  unlines
    ["Usage: ruleval [-v] check [EXPRESSION...] [-e tree|postfix] [-j] [--syntax-only]",
      "       ruleval [-v] demo [-e tree|postfix]",
      "       ruleval [-v] docs",
      "       ruleval [-v] doc CATEGORY",
      "       ruleval -V"]

/-- What the program leaves behind for its arguments and its input. -/
def outcome (arguments : List String) (input : ByteArray) : Outcome :=
  match Invocation.ofArguments? 0 arguments with
  | some invocation => invocation.run input
  | none => { code := 2, stdout := "", message := usage }

end RuleLang
