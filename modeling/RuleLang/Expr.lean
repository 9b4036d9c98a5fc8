import RuleLang.Error

/-!
# Expressions

Trees with values at the leaves and an operator with two operands at every other node. A tree is
flattened into postfix order (`Expr.toPostfix`), and built from it (`Expr.ofPostfix`) with a stack
of the trees that are not operands yet.
-/

namespace RuleLang

/-- An expression. -/
inductive Expr where
  | literal (value : Value)
  | binary (op : Operator) (left right : Expr)
deriving DecidableEq

namespace Expr

/-- The leaves and the operators in postfix order. -/
def toPostfix : Expr → List Value
  | literal value => [value]
  | binary op left right => left.toPostfix ++ right.toPostfix ++ [.operator op]

/-- The number of operators. -/
def operatorCount : Expr → Nat
  | literal _ => 0
  | binary _ left right => 1 + left.operatorCount + right.operatorCount

/-- The expression in infix order, parentheses around every operator with its operands. -/
def text : Expr → String
  | literal value => value.literal
  | binary op left right => "(" ++ left.text ++ " " ++ op.symbol ++ " " ++ right.text ++ ")"

/-- The stack of trees after one more value: an operator joins the two latest trees. -/
def push (stack : List Expr) : Value → Except Error (List Expr)
  | .operator op =>
    if op.isParen then .error (.malformed .parenthesisInPostfix)
    else
      match stack with
      | right :: left :: stack => .ok (binary op left right :: stack)
      | _ => .error (.malformed (.missingNear op))
  | operand => .ok (literal operand :: stack)

/-- The only tree on the stack. -/
def only : List Expr → Except Error Expr
  | [expr] => .ok expr
  | [] => .error (.malformed .noOperands)
  | _ => .error (.malformed .unjoined)

/-- The expression with the given postfix order. -/
def ofPostfix (values : List Value) : Except Error Expr := do
  only (← values.foldlM push [])

end Expr

end RuleLang
