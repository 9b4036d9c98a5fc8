import RuleLang.Text.Digit

/-!
# Decimal numbers

A `Decimal` is an integer coefficient of at most ninety-six bits, divided by a power of ten of at
most twenty-eight. The two limits are part of the type, so every operation that returns a
`Decimal` stays within them.

Several decimals denote one rational (`2.5` and `2.50`). `Decimal.toRat` is the number that a
decimal denotes: order and equality of decimals are those of the numbers, while the text of a
decimal shows its scale.
-/

namespace RuleLang

namespace Decimal

/-- The greatest coefficient: ninety-six binary ones. -/
def maxCoefficient : Nat := Nat.pow 2 96 - 1

/-- The greatest scale. -/
def maxScale : Nat := 28

/-- Whether a coefficient and a scale are within the limits of a decimal. -/
def Fits (coefficient : Int) (scale : Nat) : Prop :=
  coefficient.natAbs ≤ maxCoefficient ∧ scale ≤ maxScale

instance (coefficient : Int) (scale : Nat) : Decidable (Fits coefficient scale) :=
  inferInstanceAs (Decidable (_ ∧ _))

end Decimal

/-- The number `coefficient / 10 ^ scale`, written with `scale` fraction digits. -/
structure Decimal where
  /-- The digits as one integer, with the sign of the number. Zero has no sign. -/
  coefficient : Int
  /-- How many of the digits stand after the point. -/
  scale : Nat
  /-- Both are within the limits. -/
  fits : Decimal.Fits coefficient scale
deriving DecidableEq

namespace Decimal

/-- The number that a decimal denotes. -/
def toRat (d : Decimal) : Rat :=
  d.coefficient / 10 ^ d.scale

/-- Whether a decimal denotes zero, whatever its scale. -/
def isZero (d : Decimal) : Bool :=
  d.coefficient = 0

/-- The digits of a decimal, its scale shown in full and a minus sign in front of a negative one. -/
def digits (d : Decimal) : List Char :=
  let whole := Nat.toDigits 10 (d.coefficient.natAbs / Nat.pow 10 d.scale)
  let fraction := if d.scale = 0 then [] else '.' :: Digit.last d.scale d.coefficient.natAbs
  (if d.coefficient < 0 then ['-'] else []) ++ whole ++ fraction

/-- The text of a decimal. -/
def text (d : Decimal) : String :=
  String.ofList d.digits

end Decimal

end RuleLang
