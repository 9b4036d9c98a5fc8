/-!
# Engines

What an expression may be evaluated on, its tree or a stack.
-/

namespace RuleLang

/-- What an expression is evaluated on. -/
inductive Engine where
  | tree
  | stack
deriving DecidableEq, Repr

namespace Engine

/-- The engine of the given name. -/
def ofName? : String → Option Engine
  | "tree" => some tree
  | "postfix" => some stack
  | _ => none

/-- The engine as the log names it. -/
def name : Engine → String
  | tree => "Tree"
  | stack => "Postfix"

end Engine

end RuleLang
