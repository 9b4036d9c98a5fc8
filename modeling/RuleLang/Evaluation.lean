import RuleLang.Application
import RuleLang.Expr
import RuleLang.Postfix
import RuleLang.Token

/-!
# Evaluation

The value of an expression, found in either of two ways (`Engine`): from its tree, the operands
before their operator, or from its postfix order, on a stack of values. Each operator that is
applied is noted, and the first error ends the evaluation.

The tree is built before anything is applied, so a missing operand is found first. On the stack it
is found when its operator comes.
-/

namespace RuleLang

/-! ### On the tree -/

/-- The value of an expression. -/
def Expr.eval : Expr → Logged Error Value
  | literal value => pure value
  | binary op left right => do
    let left ← left.eval
    let right ← right.eval
    apply op left right

/-- The expression that tokens in infix order make. -/
def parse (tokens : List Value) : Logged Error Expr := do
  let values ← reorder tokens
  .ofExcept (Expr.ofPostfix values)

/-! ### On the stack -/

/-- The stack of values after one more value: an operator is applied to the two latest. -/
def evalStep (stack : List Value) : Value → Logged Error (List Value)
  | .operator op =>
    if op.isParen then .fail (.malformed .parenthesisInPostfix)
    else
      match stack with
      -- The right operand was found last.
      | right :: left :: stack => do return (← apply op left right) :: stack
      | _ => .fail (.malformed (.missingNear op))
  | operand => pure (operand :: stack)

/-- The only value on the stack. -/
def onlyValue : List Value → Except Error Value
  | [value] => .ok value
  | [] => .error (.malformed .noOperands)
  | stack => .error (.malformed (.unreduced stack.length))

/-- The value of an expression in postfix order. -/
def evalPostfix (values : List Value) : Logged Error Value := do
  let stack ← values.foldlM evalStep []
  .ofExcept (onlyValue stack)

/-! ### From the text -/

/-- The value of an expression. -/
def evaluate (engine : Engine) (expression : String) : Logged Error Value := do
  let tokens ← tokenize expression
  match engine with
  | .tree => (← parse tokens).eval
  | .stack => evalPostfix (← reorder tokens)

end RuleLang
