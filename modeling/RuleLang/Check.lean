import RuleLang.Evaluation
import RuleLang.Json.Text

/-!
# Checking a batch of expressions

Each expression of a batch is evaluated, or only parsed, and reported on (`check`). The first that
fails ends the batch: there are no reports then, and the expressions after it are not looked at.
-/

namespace RuleLang

/-- How a batch is checked. -/
structure CheckOptions where
  engine : Engine := .tree
  /-- Expressions are parsed and not evaluated. -/
  parseOnly : Bool := false

/-- What is said of an expression. -/
inductive Report where
  /-- It parses as the given tree. -/
  | parsed (expression : String) (expr : Expr)
  /-- It has the given value. -/
  | evaluated (expression : String) (value : Value)

namespace Report

/-- A report as a line of text. -/
def line : Report → String
  | parsed _ expr => Value.literals " " expr.toPostfix
  | evaluated _ value => value.text

/-- A report as the members of an object, in the order of their names. -/
def members : Report → List (String × String)
  | parsed expression expr =>
    [("expression", expression), ("postfix", Value.literals " " expr.toPostfix),
      ("tree", expr.text)]
  | evaluated expression value =>
    [("expression", expression), ("kind", value.kind.name), ("result", value.text)]

end Report

/-- Why there are no reports on a batch. -/
inductive CheckError where
  | noExpressions
  /-- The first expression that fails, and its error. -/
  | failed (expression : String) (error : Error)

def CheckError.message : CheckError → String
  | noExpressions =>
    "No expression provided. Pass one as an argument or pipe expressions to stdin."
  | failed expression error => s!"Error evaluating `{expression}`: {error.message}"

/-- The report on one expression. -/
def report (options : CheckOptions) (expression : String) : Logged Error Report := do
  if options.parseOnly then
    return .parsed expression (← parse (← tokenize expression))
  else
    let value ← evaluate options.engine expression
    .note (.checked expression value)
    return .evaluated expression value

/-- The reports on the expressions of a batch, in their order. -/
def reports (options : CheckOptions) : List String → Logged CheckError (List Report)
  | [] => pure []
  | expression :: expressions => do
    let first ← (report options expression).mapError (.failed expression)
    let others ← reports options expressions
    return first :: others

/-- The reports on a batch, an error if it is empty. -/
def check (options : CheckOptions) (expressions : List String) :
    Logged CheckError (List Report) :=
  if expressions = [] then .fail .noExpressions else reports options expressions

end RuleLang
