import RuleLang.Decimal.Arithmetic
import RuleLang.Error
import RuleLang.Json.Strings
import RuleLang.Log

/-!
# Applying operators

What an operator makes of two values (`combine`). Arithmetic is for numbers, equality for two
values of one kind that has it (`same?`), order for numbers and for moments (`order?`), membership
for string arrays and for the parts of strings (`contains?`), and the connectives for truth values.
An operator and two kinds for which none of this is defined are an error that names all three.

A string array is read here, each time it is asked for an item, and one that cannot be read is an
error.
-/

namespace RuleLang

/-- Whether two values are equal, `none` if equality is not defined for their kinds. -/
def same? : Value → Value → Option Bool
  | .number a, .number b => some (a.toRat = b.toRat)
  | .boolean a, .boolean b => some (a = b)
  | .datetime _ a, .datetime _ b => some (a = b)
  | .string a, .string b => some (a = b)
  | _, _ => none

/-- The order of two values, `none` if order is not defined for their kinds. -/
def order? : Value → Value → Option Ordering
  | .number a, .number b => some (a.order b)
  | .datetime _ a, .datetime _ b => some (a.order b)
  | _, _ => none

/-- The items of a string array. -/
def arrayItems (text : String) : Except Error (List String) :=
  (Json.readStrings text.toList).mapError fun failure =>
    .malformed (.unreadableArray text failure)

/-- Whether a text has another as a part. -/
def hasPart (part : List Char) : List Char → Bool
  | [] => part.isEmpty
  | c :: cs => part.isPrefixOf (c :: cs) || hasPart part cs

/-- The search finds exactly the texts that stand somewhere inside. -/
theorem hasPart_iff {part whole : List Char} : hasPart part whole ↔ part <:+: whole := by
  induction whole with
  | nil => rw [hasPart, List.isEmpty_iff, List.infix_nil]
  | cons c cs ih =>
    rw [hasPart, Bool.or_eq_true, List.isPrefixOf_iff_prefix, ih, List.infix_cons_iff]

/-- Whether a value has another as an item, has all items of another, or has another as a part.
It is `none` if membership is not defined for their kinds. -/
def contains? : Value → Value → Except Error (Option Bool)
  | .stringArray array, .string item => do return some ((← arrayItems array).contains item)
  | .stringArray array, .stringArray wanted => do
    let present ← arrayItems array
    return some ((← arrayItems wanted).all present.contains)
  | .string whole, .string part => .ok (some (hasPart part.toList whole.toList))
  | _, _ => .ok none

/-- The connective `f` on truth values, `none` on values of other kinds. -/
def connect? (f : Bool → Bool → Bool) : Value → Value → Option Bool
  | .boolean a, .boolean b => some (f a b)
  | _, _ => none

/-- The verdict of an operator, an error if it has none on values of these kinds. -/
def verdict (op : Operator) (left right : Value) : Option Bool → Except Error Value
  | some b => .ok (.boolean b)
  | none => .error (.unsupported op left right)

/-- The number that `f` makes of two numbers, an overflow if there is none. -/
def compute (op : Operator) (f : Decimal → Decimal → Option Decimal) :
    Value → Value → Except Error Value
  | .number a, .number b =>
    match f a b with
    | some n => .ok (.number n)
    | none => .error (.overflow op a b)
  | left, right => .error (.unsupported op left right)

/-- The quotient of two numbers, an error if the divisor is zero. -/
def quotient (op : Operator) : Value → Value → Except Error Value
  | .number a, .number b =>
    if b.isZero then .error .divideByZero else compute op Decimal.divide? (.number a) (.number b)
  | left, right => .error (.unsupported op left right)

/-- What an operator makes of two values. -/
def combine (op : Operator) (left right : Value) : Except Error Value :=
  match op with
  | .add => compute op Decimal.add? left right
  | .subtract => compute op Decimal.subtract? left right
  | .multiply => compute op Decimal.multiply? left right
  | .divide => quotient op left right
  | .equal => verdict op left right (same? left right)
  | .notEqual => verdict op left right ((same? left right).map not)
  | .greaterThan => verdict op left right ((order? left right).map (·.isGT))
  | .greaterEqual => verdict op left right ((order? left right).map (·.isGE))
  | .lessThan => verdict op left right ((order? left right).map (·.isLT))
  | .lessEqual => verdict op left right ((order? left right).map (·.isLE))
  | .contains => do verdict op left right (← contains? left right)
  | .notContains => do verdict op left right ((← contains? left right).map not)
  | .and => verdict op left right (connect? Bool.and left right)
  | .or => verdict op left right (connect? Bool.or left right)
  | .leftParen | .rightParen => .error (.unsupported op left right)

/-- What an operator makes of two values, with a note of it if it makes anything. -/
def apply (op : Operator) (left right : Value) : Logged Error Value := do
  let result ← .ofExcept (combine op left right)
  .note (.applied op left right result)
  return result

end RuleLang
