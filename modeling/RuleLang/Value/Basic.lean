import RuleLang.Decimal.Basic
import RuleLang.Moment
import RuleLang.Operator

/-!
# Values

What an expression is made of and evaluates to. A value is a literal or an operator, and it keeps
what its text shows: a number its scale, a moment the text it was written with, a string array its
brackets and escapes.

A value has two texts. `Value.text` is the one for output. `Value.literal` is the one in
expressions, with the quotes of strings and moments.
-/

namespace RuleLang

/-- The kinds of values. -/
inductive Kind where
  | unknown
  | number
  | boolean
  | datetime
  | string
  | operator
  | stringArray
deriving DecidableEq, Repr

def Kind.name : Kind → String
  | unknown => "Unknown"
  | number => "Number"
  | boolean => "Boolean"
  | datetime => "Datetime"
  | string => "String"
  | operator => "Operator"
  | stringArray => "StringArray"

/-- A literal, an operator, or a text that is neither. -/
inductive Value where
  /-- A text that is no literal and no operator. -/
  | unknown (text : String)
  | number (value : Decimal)
  | boolean (value : Bool)
  /-- A date or a date and time, as it is written and the moment that it denotes. -/
  | datetime (text : String) (moment : Moment)
  /-- A string, without its quotes. -/
  | string (text : String)
  | operator (op : Operator)
  /-- A string array, as it is written. -/
  | stringArray (text : String)
deriving DecidableEq

namespace Value

def kind : Value → Kind
  | unknown _ => .unknown
  | number _ => .number
  | boolean _ => .boolean
  | datetime _ _ => .datetime
  | string _ => .string
  | operator _ => .operator
  | stringArray _ => .stringArray

/-- The text of a value in output, strings and moments without quotes. -/
def text : Value → String
  | unknown text | datetime text _ | string text | stringArray text => text
  | number value => value.text
  | boolean true => "True"
  | boolean false => "False"
  | operator op => op.symbol

/-- A text between double quotes. Quotes inside it stay as they are. -/
def quoted (text : String) : String :=
  "\"" ++ text ++ "\""

/-- The text of a value in expressions. -/
def literal : Value → String
  | string text | datetime text _ => quoted text
  | value => value.text

/-- The literals of some values, with a separator between them. -/
def literals (separator : String) (values : List Value) : String :=
  separator.intercalate (values.map literal)

end Value

end RuleLang
