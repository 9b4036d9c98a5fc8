import RuleLang.Json.Binary64
import RuleLang.Json.Failure
import RuleLang.Text.Digit

/-!
# JSON numbers

A number never belongs in a list of strings, but the refusal names it, so it has to be read. An
integer of sixty-four bits is kept as it is. Every other number becomes a binary floating-point
number: its digits are gathered in a word of sixty-four bits, and once that is full the rest of
them count for their places alone.
-/

namespace RuleLang.Json

/-- Appends digits to the number `n` as long as it stays within `limit`; gives the number and the
text that follows. A digit in front of that text is one that did not fit. -/
def takeDigits (limit n : Nat) : List Char → Nat × List Char
  | [] => (n, [])
  | c :: cs =>
    match Digit.ofChar? c with
    | some d =>
      if 10 * n + d.val ≤ limit then takeDigits limit (10 * n + d.val) cs else (n, c :: cs)
    | none => (n, c :: cs)

/-- Whether a text starts with a digit. -/
def startsWithDigit (cs : List Char) : Bool :=
  cs.head?.any Digit.isDigit

/-- The text without the digits in front. -/
def skipDigits (cs : List Char) : List Char :=
  cs.dropWhile Digit.isDigit

/-- The greatest word of sixty-four bits. -/
def maxWord : Nat := Nat.pow 2 64 - 1

/-- The greatest exponent that is told from an infinite one. -/
def maxExponent : Nat := Nat.pow 2 31 - 1

/-- `x * 10 ^ exponent`, `none` if that is infinite. A power below the least one is divided off in
parts; `tries` bounds their number, and four make every word zero. -/
def scaleFloat? (x : Float) (exponent : Int) : (tries : Nat) → Option Float
  | 0 => some x
  | tries + 1 =>
    if exponent.natAbs ≤ 308 then
      let power := Float.ofScientific 1 false exponent.natAbs
      if exponent < 0 then some (x / power)
      else if (x * power).isInf then none
      else some (x * power)
    else if x == 0 then some x
    else if 0 ≤ exponent then none
    else scaleFloat? (x / 1e308) (exponent + 308) tries

/-- The floating-point number of the given sign, digits and exponent, in front of `rest`. -/
def floatingPoint (negative : Bool) (word : Nat) (exponent : Int) (rest : List Char) :
    Except Failure (Found × List Char) :=
  match scaleFloat? word.toUInt64.toFloat exponent 4 with
  | some x => .ok (.floatingPoint (Binary64.text (if negative then -x else x)), rest)
  | none => .error (.before .numberOutOfRange rest)

/-- An exponent, from after its letter. -/
def readExponent (negative : Bool) (word : Nat) (exponent : Int) (cs : List Char) :
    Except Failure (Found × List Char) :=
  let (down, cs) : Bool × List Char :=
    match cs with
    | '+' :: cs => (false, cs)
    | '-' :: cs => (true, cs)
    | cs => (false, cs)
  if cs.isEmpty then .error (.before .endInValue cs)
  else if !startsWithDigit cs then .error (.within .invalidNumber cs)
  else
    let (shift, rest) := takeDigits maxExponent 0 cs
    if startsWithDigit rest then
      if word ≠ 0 && !down then .error (.within .numberOutOfRange rest)
      else floatingPoint negative 0 0 (skipDigits rest)
    else floatingPoint negative word (if down then exponent - shift else exponent + shift) rest

/-- What may follow the digits of a number that is no integer: an exponent or nothing. -/
def readAfterDigits (negative : Bool) (word : Nat) (exponent : Int) :
    List Char → Except Failure (Found × List Char)
  | 'e' :: cs | 'E' :: cs => readExponent negative word exponent cs
  | cs => floatingPoint negative word exponent cs

/-- A fraction, from after its point. -/
def readFraction (negative : Bool) (word : Nat) (exponent : Int) (cs : List Char) :
    Except Failure (Found × List Char) :=
  if cs.isEmpty then .error (.before .endInValue cs)
  else if !startsWithDigit cs then .error (.within .invalidNumber cs)
  else
    let (word, rest) := takeDigits maxWord word cs
    readAfterDigits negative word (exponent - (cs.length - rest.length : Nat)) (skipDigits rest)

/-- An integer as it is, if it is one of sixty-four bits. A negative zero is not. -/
def ofInteger (negative : Bool) (word : Nat) (rest : List Char) :
    Except Failure (Found × List Char) :=
  if !negative then .ok (.integer word, rest)
  else if word = 0 || Nat.pow 2 63 < word then floatingPoint negative word 0 rest
  else .ok (.integer (-word), rest)

/-- A number, from after its sign. -/
def readNumber (negative : Bool) (cs : List Char) : Except Failure (Found × List Char) :=
  if cs.isEmpty then .error (.before .endInValue cs)
  else if !startsWithDigit cs then .error (.within .invalidNumber cs)
  else if cs.head? = some '0' && startsWithDigit cs.tail then
    .error (.within .invalidNumber cs.tail)
  else
    let (word, rest) := takeDigits maxWord 0 cs
    -- digits that did not fit count for their places alone
    let following := skipDigits rest
    let places := rest.length - following.length
    match following with
    | '.' :: cs => readFraction negative word places cs
    | 'e' :: cs | 'E' :: cs => readExponent negative word places cs
    | cs => if places = 0 then ofInteger negative word cs else floatingPoint negative word places cs

end RuleLang.Json
