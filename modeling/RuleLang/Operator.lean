/-!
# Operators

The sixteen operators, parentheses included, each with its symbol and its precedence. A higher
precedence binds tighter, and operators of equal precedence group to the left. The symbols are
distinct, so a symbol names its operator (`ofSymbol?_symbol`, `ofSymbol?_eq_some_iff`).
-/

namespace RuleLang

/-- An operator or a parenthesis. -/
inductive Operator where
  | leftParen
  | rightParen
  | and
  | or
  | equal
  | notEqual
  | contains
  | notContains
  | greaterThan
  | greaterEqual
  | lessThan
  | lessEqual
  | add
  | subtract
  | multiply
  | divide
deriving DecidableEq, Repr

namespace Operator

/-- Every operator, in the order of the operator table. -/
def all : List Operator :=
  [leftParen, rightParen, and, or, equal, notEqual, contains, notContains, greaterThan,
    greaterEqual, lessThan, lessEqual, add, subtract, multiply, divide]

/-- The operator as it is written. -/
def symbol : Operator → String
  | leftParen => "("
  | rightParen => ")"
  | and => "&&"
  | or => "||"
  | equal => "=="
  | notEqual => "!="
  | contains => "##"
  | notContains => "!#"
  | greaterThan => ">"
  | greaterEqual => ">="
  | lessThan => "<"
  | lessEqual => "<="
  | add => "+"
  | subtract => "-"
  | multiply => "*"
  | divide => "/"

/-- The operator that a symbol names. -/
def ofSymbol? (symbol : String) : Option Operator :=
  all.find? fun op => op.symbol = symbol

/-- How tightly an operator binds. Parentheses are below all others. -/
def precedence : Operator → Nat
  | leftParen | rightParen => 0
  | and | or => 1
  | equal | notEqual | contains | notContains => 2
  | greaterThan | greaterEqual | lessThan | lessEqual => 3
  | add | subtract => 4
  | multiply | divide => 5

/-- Whether the operator is a parenthesis: it shapes an expression and is never applied. -/
def isParen : Operator → Bool
  | leftParen | rightParen => true
  | _ => false

theorem mem_all (op : Operator) : op ∈ all := by
  cases op <;> decide

theorem ofSymbol?_symbol (op : Operator) : ofSymbol? op.symbol = some op := by
  cases op <;> rfl

theorem symbol_injective {a b : Operator} (h : a.symbol = b.symbol) : a = b := by
  have := ofSymbol?_symbol a
  rw [h, ofSymbol?_symbol] at this
  exact (Option.some.inj this).symm

theorem ofSymbol?_eq_some_iff {s : String} {op : Operator} :
    ofSymbol? s = some op ↔ op.symbol = s := by
  constructor
  · intro h
    simpa using List.find?_some h
  · rintro rfl
    exact ofSymbol?_symbol op

end Operator

end RuleLang
