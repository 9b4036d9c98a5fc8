import RuleLang.Decimal.Numeral
import RuleLang.StringArray
import RuleLang.Value.Basic

/-!
# Classification

The value that a text is. No text has two of the forms, apart from a quoted moment, which is a
quoted string too: so the order of the tests matters there alone. A moment that is not in the
calendar is an ordinary string, and a numeral that is out of range is unknown.
-/

namespace RuleLang

/-- The text between the double quotes at the two ends of a text. -/
def unquote? : List Char → Option (List Char)
  | '"' :: cs => if cs.getLast? = some '"' then some cs.dropLast else none
  | _ => none

/-- The truth value that a word denotes, in either spelling. -/
def boolean? (word : String) : Option Bool :=
  if word = "True" ∨ word = "true" then some true
  else if word = "False" ∨ word = "false" then some false
  else none

namespace Value

/-- The value of a quoted text: a moment if it denotes one. -/
def ofQuoted (cs : List Char) : Value :=
  match Moment.read? cs with
  | some moment => .datetime (String.ofList cs) moment
  | none => .string (String.ofList cs)

/-- The value that a text is a literal of, if it is one. -/
def ofLiteral? (text : String) : Option Value :=
  let cs := text.toList
  match unquote? cs, boolean? text, Numeral.read? cs with
  | some inner, _, _ => some (ofQuoted inner)
  | none, some b, _ => some (.boolean b)
  | none, none, some numeral => (Decimal.ofNumeral? numeral).map .number
  | none, none, none => if StringArray.hasShape cs then some (.stringArray text) else none

/-- The value that a text is. -/
def classify (text : String) : Value :=
  match Operator.ofSymbol? text, ofLiteral? text with
  | some op, _ => .operator op
  | none, some value => value
  | none, none => .unknown text

end Value

end RuleLang
