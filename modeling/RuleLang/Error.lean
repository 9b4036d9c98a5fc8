import RuleLang.Json.Failure
import RuleLang.Value.Basic

/-!
# Errors

Why an expression has no value. Each error is a cause with what its message needs
(`Error.message`), and belongs to one of six kinds (`Error.kind`).
-/

namespace RuleLang

/-- What is malformed in an expression. -/
inductive Malformation where
  /-- A numeral is out of range. -/
  | numberOutOfRange (numeral : String) (offset : Nat)
  /-- Parentheses with nothing between them. -/
  | emptyParentheses
  /-- A parenthesis where the operators are in postfix order. -/
  | parenthesisInPostfix
  /-- An operator lacks an operand. -/
  | missingNear (op : Operator)
  /-- Operands are left that no operator joins. -/
  | unjoined
  /-- Values are left that no operator joins. -/
  | unreduced (count : Nat)
  /-- There is nothing to evaluate. -/
  | noOperands
  /-- A string array cannot be read. -/
  | unreadableArray (text : String) (failure : Json.Failure)
deriving DecidableEq

/-- How parentheses fail to match. -/
inductive Mismatch where
  /-- A closing parenthesis too many in a text. -/
  | unopenedAt (offset : Nat)
  /-- Parentheses left open at the end of a text. -/
  | unclosed (count : Nat)
  /-- A closing parenthesis too many among tokens. -/
  | neverOpened
  /-- A parenthesis left open among tokens. -/
  | neverClosed
deriving DecidableEq

/-- Why an expression has no value. -/
inductive Error where
  /-- The expression is empty or blank. -/
  | emptyExpression
  | malformed (what : Malformation)
  | mismatched (how : Mismatch)
  /-- An operator is not defined for the kinds of its operands. -/
  | unsupported (op : Operator) (left right : Value)
  | divideByZero
  /-- The result is not in the range of decimals. -/
  | overflow (op : Operator) (left right : Decimal)
deriving DecidableEq

/-- The kinds of errors. -/
inductive ErrorKind where
  | emptyExpression
  | malformedExpression
  | mismatchedParentheses
  | unsupportedOperation
  | divideByZero
  | overflow
deriving DecidableEq, Repr

def ErrorKind.name : ErrorKind → String
  | emptyExpression => "EmptyExpression"
  | malformedExpression => "MalformedExpression"
  | mismatchedParentheses => "MismatchedParentheses"
  | unsupportedOperation => "UnsupportedOperation"
  | divideByZero => "DivideByZero"
  | overflow => "Overflow"

def Malformation.message : Malformation → String
  | numberOutOfRange numeral offset => s!"number `{numeral}` at offset {offset} is out of range"
  | emptyParentheses => "missing expression inside parentheses"
  | parenthesisInPostfix => "parenthesis in postfix sequence"
  | missingNear op => s!"missing operator or operand near `{op.symbol}`"
  | unjoined => "missing operator or operand"
  | unreduced count => s!"missing operator or operand: {count} values left unreduced"
  | noOperands => "expression has no operands"
  | unreadableArray text failure =>
    s!"invalid string array {text}: {failure.message text.toList}"

def Mismatch.message : Mismatch → String
  | unopenedAt offset => s!"`)` at offset {offset} has no matching `(`"
  | unclosed count => s!"{count} unclosed `(`"
  | neverOpened => "`)` has no matching `(`"
  | neverClosed => "`(` is never closed"

namespace Error

def kind : Error → ErrorKind
  | emptyExpression => .emptyExpression
  | malformed _ => .malformedExpression
  | mismatched _ => .mismatchedParentheses
  | unsupported _ _ _ => .unsupportedOperation
  | divideByZero => .divideByZero
  | overflow _ _ _ => .overflow

def message : Error → String
  | emptyExpression => "expression must not be empty or blank"
  | malformed what => s!"malformed expression: {what.message}"
  | mismatched how => s!"mismatched parentheses: {how.message}"
  | unsupported op left right =>
    s!"unsupported operation: cannot apply `{op.symbol}` to {left.kind.name} `{left.text}`"
      ++ s!" and {right.kind.name} `{right.text}`"
  | divideByZero => "division by zero"
  | overflow op left right =>
    s!"arithmetic overflow evaluating `{left.text} {op.symbol} {right.text}`"

end Error

end RuleLang
