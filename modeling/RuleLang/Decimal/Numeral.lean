import RuleLang.Decimal.Basic

/-!
# Numerals

A numeral is an optional minus sign, digits, and optionally a point and more digits
(`Numeral.read?`). It denotes a rational exactly (`Numeral.toRat`), and a decimal within the
decimal's limits (`Decimal.ofNumeral?`).

The fraction digits are taken as long as they fit. The first that does not fit is rounded, a half
up, and the rest is not looked at. Rounding the greatest coefficient up leaves the ninety-six bits
and costs one digit of the scale, which the integer part cannot pay: there, as for an integer part
that is too large itself, the numeral is out of range.
-/

namespace RuleLang

/-- The parts of a numeral. -/
structure Numeral where
  /-- Whether a minus sign stands in front. -/
  negative : Bool
  /-- The digits before the point. -/
  whole : List Digit
  /-- The digits after the point, none if there is no point. -/
  fraction : List Digit

namespace Numeral

/-- The numeral of the given sign whose digits are a text: digits, or digits on both sides of a
point. -/
def readUnsigned? (negative : Bool) (cs : List Char) : Option Numeral := do
  let whole ← Digit.read? (cs.takeWhile (· ≠ '.'))
  match cs.dropWhile (· ≠ '.') with
  | [] => return { negative, whole, fraction := [] }
  | _ :: cs => return { negative, whole, fraction := ← Digit.read? cs }

/-- The numeral that a text is, whatever its range. -/
def read? : List Char → Option Numeral
  | '-' :: cs => readUnsigned? true cs
  | cs => readUnsigned? false cs

/-- The number that a numeral denotes. -/
def toRat (n : Numeral) : Rat :=
  let magnitude : Rat := (Digit.value (n.whole ++ n.fraction) : Nat) / 10 ^ n.fraction.length
  if n.negative then -magnitude else magnitude

/-- Rounds `coefficient / 10 ^ scale` by the digit that follows it, a half up. Past the greatest
coefficient the result is rounded once more, to one digit less. -/
def roundUp? (coefficient scale : Nat) (next : Digit) : Option (Nat × Nat) :=
  if next.val < 5 then some (coefficient, scale)
  else if coefficient + 1 ≤ Decimal.maxCoefficient then some (coefficient + 1, scale)
  else if scale = 0 then none
  -- The one of the first rounding and four more: a half of the last digit of `coefficient`.
  else some ((coefficient + 1 + 4) / 10, scale - 1)

/-- Appends fraction digits to `coefficient / 10 ^ scale` as long as they fit, and rounds by the
first that does not. -/
def appendFraction? (coefficient scale : Nat) : List Digit → Option (Nat × Nat)
  | [] => some (coefficient, scale)
  | d :: ds =>
    if Decimal.Fits (10 * coefficient + d.val : Nat) (scale + 1) then
      appendFraction? (10 * coefficient + d.val) (scale + 1) ds
    else
      roundUp? coefficient scale d

/-- The coefficient and the scale of the numeral without its sign, `none` if it is out of range. -/
def magnitude? (n : Numeral) : Option (Nat × Nat) :=
  let whole := Digit.value n.whole
  if whole ≤ Decimal.maxCoefficient then appendFraction? whole 0 n.fraction else none

end Numeral

namespace Decimal

/-- The decimal that a numeral denotes, `none` if it is out of range. -/
def ofNumeral? (n : Numeral) : Option Decimal := do
  let (coefficient, scale) ← n.magnitude?
  let signed : Int := if n.negative then -coefficient else coefficient
  if fits : Fits signed scale then some ⟨signed, scale, fits⟩ else none

end Decimal

end RuleLang
