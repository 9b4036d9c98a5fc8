/-!
# The manual

The pages of the manual and the overview that lists them. A page has one or more names, and letters
of either case serve in a name.
-/

namespace RuleLang

/-- A page of the manual. -/
inductive Page where
  | literals
  | operators
  | types
deriving DecidableEq, Repr

namespace Page

def title : Page → String
  | literals => "Syntax"
  | operators => "Operators"
  | types => "Types"

/-- The names of a page, in small letters. -/
def names : Page → List String
  | literals => ["syntax", "literals"]
  | operators => ["operators", "ops"]
  | types => ["types", "type", "kinds"]

/-- The small letter for a letter. The Kelvin sign is the one letter outside ASCII whose small
letter is in ASCII. -/
def smallLetter (c : Char) : Char :=
  if c = '\u212A' then 'k' else c.toLower

/-- The page of the given name. -/
def ofName? (name : String) : Option Page :=
  let small := String.ofList (name.toList.map smallLetter)
  [literals, operators, types].find? fun page => small ∈ page.names

/-- The text of a page. -/
def text : Page → String
  | literals => r#"SYNTAX - Literals and Grouping

NUMBERS
  42   -7   3.14   -5.6
    Decimal numbers, optionally signed. Arithmetic is exact base-10, so
    4.1 + 4.1 - 4.1 * 4.1 / 4.1 is exactly 4.1.

    A leading '-' is a sign only at the start of the expression or right
    after an operator. After a number or ')' it is subtraction:
      5-3         => 2
      -11>=-5.6   => False
      (1+2)-3     => 0

BOOLEANS
  true   false   True   False

STRINGS
  "bob"
    Double-quoted. There are no escape sequences; a string ends at the next
    double quote.

DATE-TIMES
  "2022-11-21"   "2019/11/22 23:46:22"
    A quoted YYYY-MM-DD or YYYY-MM-DD HH:MM:SS, separated by '-' or '/'.
    Anything else in quotes, including impossible dates, is a string.

STRING ARRAYS
  ["bob","jack"]
    A bracketed, comma-separated list of double-quoted strings.

PARENTHESES
  (1 + 2) * 3
    Group sub-expressions. Every '(' needs a matching ')', and '()' with
    nothing inside is an error.

Unrecognised text between tokens is ignored.
"#
  | operators => r#"OPERATORS - Precedence and Associativity

  Precedence   Operators              Meaning
  5            *  /                   multiply, divide
  4            +  -                   add, subtract
  3            >  >=  <  <=           ordering
  2            ==  !=  ##  !#         equality, contains, not contains
  1            &&  ||                 logical and, or

Higher precedence binds tighter. Operators of equal precedence group left to
right:

  8 - 3 - 2     => 3        evaluated as (8 - 3) - 2
  1 + 2 * 3     => 7
  (1 + 2) * 3   => 9

CONTAINS (##) AND NOT CONTAINS (!#)
  ["bob","jack"] ## "bob"       True   array has element
  ["bob","jack"] ## ["jack"]    True   array has every element of the right
  "ruleval" ## "val"            True   substring
  ["bob","jack"] !# "jan"       True   negation of ##

Both sides of && and || are always evaluated.
"#
  | types => r#"TYPES - Operand Kinds

KINDS
  Number, Boolean, Datetime, String, StringArray

ACCEPTED COMBINATIONS
  + - * /        Number and Number                    => Number
  == !=          two of the same kind among
                 Number, Boolean, Datetime, String    => Boolean
  > >= < <=      Number and Number,
                 Datetime and Datetime                => Boolean
  ## !#          StringArray and String,
                 StringArray and StringArray,
                 String and String                    => Boolean
  && ||          Boolean and Boolean                  => Boolean

There are no implicit conversions. Any other combination is an error that
names the operator and both operands:

  1 + "a"
  => unsupported operation: cannot apply `+` to Number `1` and String `a`

Division by zero and results beyond the decimal range are errors as well.

OUTPUT
  Booleans print as True or False. Arithmetic results print without trailing
  zeros. Strings and date-times print without quotes.
"#

end Page

/-- The list of the pages. -/
def overview : String := r#"RULEVAL DOCUMENTATION

Ruleval evaluates short rule predicates over typed literals and prints a single
result. There are no variables or functions: every operand is written inline.

DOCUMENTATION CATEGORIES

  syntax            Literals, parentheses and how negative numbers are read
  operators         Operators, precedence and associativity
  types             Which operand kinds each operator accepts

QUICK REFERENCE

  1 + 2 * 3                    Arithmetic          => 7
  (1 + 2) * 3 == 9             Comparison          => True
  "2022-11-21" > "2019-11-22"  Date-times          => True
  ["a","b"] ## "a"             Array membership    => True
  1 == 1 && 2 < 1              Logical connectors  => False

Run 'ruleval doc <category>' for detailed documentation.
Run 'ruleval demo' to evaluate the built-in samples.
"#

end RuleLang
