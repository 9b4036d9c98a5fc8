import RuleLang.Error
import RuleLang.Log

/-!
# Postfix order

Putting the tokens of an infix expression into postfix order, without parentheses. Operands are
output as they come. Operators wait on a stack (`Reordering.pending`) until an operator comes that
does not bind tighter, or the end of the group that they are in.

One token is one step (`Reordering.step`), so what holds of the stack after every token is an
invariant of the steps. Tokens of unknown kind are passed over as if they were not there.
-/

namespace RuleLang

/-- The state between two tokens. -/
structure Reordering where
  /-- The output so far. -/
  output : Array Value
  /-- The operators and the opening parentheses that wait, the latest first. -/
  pending : List Operator
  /-- Whether the latest token is an opening parenthesis. -/
  opened : Bool

namespace Reordering

/-- Nothing read yet. -/
def start : Reordering := ⟨#[], [], false⟩

/-- The output after the given operators have left the stack. -/
def emit (r : Reordering) (ops : List Operator) : Array Value :=
  r.output ++ (ops.map Value.operator).toArray

/-- Whether a waiting operator has to be output before `op` can wait. An opening parenthesis never
has to: its precedence is below that of all operators that are applied. -/
def yields (op waiting : Operator) : Bool :=
  op.precedence ≤ waiting.precedence

/-- One token further. -/
def step (r : Reordering) : Value → Except Error Reordering
  | .unknown _ => .ok r
  | .operator .leftParen => .ok { r with pending := .leftParen :: r.pending, opened := true }
  | .operator .rightParen =>
    -- Before anything else: empty parentheses are told apart from parentheses that do not match.
    if r.opened then .error (.malformed .emptyParentheses)
    else
      match r.pending.dropWhile (· ≠ .leftParen) with
      | [] => .error (.mismatched .neverOpened)
      | _ :: pending =>
        .ok ⟨r.emit (r.pending.takeWhile (· ≠ .leftParen)), pending, false⟩
  | .operator op =>
    .ok ⟨r.emit (r.pending.takeWhile (yields op)), op :: r.pending.dropWhile (yields op), false⟩
  | operand => .ok { r with output := r.output.push operand, opened := false }

/-- The output once there are no more tokens. -/
def finish (r : Reordering) : Except Error (List Value) :=
  if .leftParen ∈ r.pending then .error (.mismatched .neverClosed)
  else .ok (r.emit r.pending).toList

end Reordering

/-- The tokens in postfix order. -/
def postfixOrder (tokens : List Value) : Except Error (List Value) := do
  (← tokens.foldlM Reordering.step .start).finish

/-- The tokens in postfix order, with a note of it. -/
def reorder (tokens : List Value) : Logged Error (List Value) := do
  let values ← .ofExcept (postfixOrder tokens)
  .note (.reordered values)
  return values

end RuleLang
