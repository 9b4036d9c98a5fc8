import RuleLang.Decimal.Basic

/-!
# Decimal arithmetic

Each operation takes the exact rational result and keeps as many fraction digits of it as it may.
The operands' scales bound the scale of a sum, a difference and a product, and a quotient may have
every scale. The largest such scale at which the rounded result is within the limits is taken, a
half going to the even neighbour (`ofRat?`), and zeros at the end of the fraction are dropped
(`normalize`). A result that does not even fit as an integer is an overflow, `none`.

So an exact result with no more digits than a decimal can hold is never rounded.
-/

namespace RuleLang

/-- The integer nearest to `q`, and the even one when `q` is halfway between two. -/
def roundHalfEven (q : Rat) : Int :=
  let below := q.floor
  let excess := q - below
  if excess < 1 / 2 then below
  else if 1 / 2 < excess then below + 1
  else if below % 2 = 0 then below
  else below + 1

namespace Decimal

/-- `q` rounded to `scale` fraction digits, if that is a decimal. -/
def round? (q : Rat) (scale : Nat) : Option Decimal :=
  let coefficient := roundHalfEven (q * 10 ^ scale)
  if h : Fits coefficient scale then some ⟨coefficient, scale, h⟩ else none

/-- `q` rounded to the most fraction digits, at most `limit`, that make a decimal. -/
def ofRat? (q : Rat) : (limit : Nat) → Option Decimal
  | 0 => round? q 0
  | limit + 1 =>
    match round? q (limit + 1) with
    | some d => some d
    | none => ofRat? q limit

/-- `coefficient / 10 ^ scale` without zeros at the end of the fraction. -/
def dropZeros (coefficient : Int) : (scale : Nat) → Fits coefficient scale → Decimal
  | 0, fits => ⟨coefficient, 0, fits⟩
  | scale + 1, fits =>
    if coefficient % 10 = 0 then
      dropZeros (coefficient / 10) scale (by unfold Fits at fits ⊢; omega)
    else
      ⟨coefficient, scale + 1, fits⟩

/-- The same number without zeros at the end of the fraction. -/
def normalize (d : Decimal) : Decimal :=
  dropZeros d.coefficient d.scale d.fits

/-- The sum, with at most as many fraction digits as the longer of the two operands. -/
def add? (a b : Decimal) : Option Decimal :=
  (ofRat? (a.toRat + b.toRat) (max a.scale b.scale)).map normalize

/-- The difference, with at most as many fraction digits as the longer of the two operands. -/
def subtract? (a b : Decimal) : Option Decimal :=
  (ofRat? (a.toRat - b.toRat) (max a.scale b.scale)).map normalize

/-- The product, with at most as many fraction digits as both operands together. -/
def multiply? (a b : Decimal) : Option Decimal :=
  (ofRat? (a.toRat * b.toRat) (a.scale + b.scale)).map normalize

/-- The quotient, with any number of fraction digits. The divisor is not zero. -/
def divide? (a b : Decimal) : Option Decimal :=
  (ofRat? (a.toRat / b.toRat) maxScale).map normalize

/-- The order of the numbers that two decimals denote. -/
def order (a b : Decimal) : Ordering :=
  compareOfLessAndEq a.toRat b.toRat

end Decimal

end RuleLang
