import Mathlib.Data.Rat.Floor
import Mathlib.Tactic.FieldSimp
import Mathlib.Tactic.Positivity
import Mathlib.Tactic.Ring
import RuleLang.Decimal.Arithmetic

/-!
# Scales of operands and results

The scales of the operands bound the scale of a sum, a difference and a product, and a decimal can
be written with any number of zeros behind its fraction. So the bound depends on how the operands
are written, and with it the roundings that are tried. The result does not.

The reason is that the bound is never in the way. The exact result has no more fraction digits than
the bound of its operands allows (`HasDigits`), whichever way they are written. Where a larger bound
makes room for one digit more, either this digit fits, and then it is a zero, which is dropped again
(`normalize_append_zero`); or it does not fit, and the search goes on from the smaller bound
(`map_normalize_ofRat?_succ`). Every bound with room for the exact result therefore gives the result
of the largest bound there is, and this is a function of the exact result alone
(`map_normalize_ofRat?_eq_nearest?`). So each operation is the exact one, followed by this function
(`add?_eq_nearest?` and its like), and of its operands only the numbers that they denote matter
(`add?_congr` and its like).
-/

namespace RuleLang

/-- An integer is its own nearest integer. -/
theorem roundHalfEven_intCast (n : Int) : roundHalfEven (n : Rat) = n := by
  have hexcess : (n : Rat) - (n : Rat).floor < 1 / 2 := by
    rw [Rat.floor_intCast, sub_self]
    positivity
  rw [roundHalfEven, if_pos hexcess, Rat.floor_intCast]

/-- The number can be written with `scale` fraction digits, with as large a coefficient as it
takes. -/
def HasDigits (q : Rat) (scale : Nat) : Prop :=
  ∃ coefficient : Int, q = coefficient / 10 ^ scale

namespace HasDigits

variable {p q : Rat} {scale scale' : Nat}

/-- More digits do no harm. -/
theorem mono (h : HasDigits q scale) (hle : scale ≤ scale') : HasDigits q scale' := by
  obtain ⟨coefficient, rfl⟩ := h
  obtain ⟨more, rfl⟩ := Nat.exists_eq_add_of_le hle
  refine ⟨coefficient * 10 ^ more, ?_⟩
  push_cast
  rw [pow_add]
  field_simp

/-- A sum has no more digits than both of its operands have. -/
theorem add (hp : HasDigits p scale) (hq : HasDigits q scale) : HasDigits (p + q) scale := by
  obtain ⟨m, rfl⟩ := hp
  obtain ⟨n, rfl⟩ := hq
  refine ⟨m + n, ?_⟩
  push_cast
  rw [add_div]

theorem sub (hp : HasDigits p scale) (hq : HasDigits q scale) : HasDigits (p - q) scale := by
  obtain ⟨m, rfl⟩ := hp
  obtain ⟨n, rfl⟩ := hq
  refine ⟨m - n, ?_⟩
  push_cast
  rw [sub_div]

/-- The digits of a product are those of both factors together. -/
theorem mul (hp : HasDigits p scale) (hq : HasDigits q scale') :
    HasDigits (p * q) (scale + scale') := by
  obtain ⟨m, rfl⟩ := hp
  obtain ⟨n, rfl⟩ := hq
  refine ⟨m * n, ?_⟩
  push_cast
  rw [pow_add, div_mul_div_comm]

end HasDigits

namespace Decimal

/-- A decimal denotes a number that has its digits. -/
theorem hasDigits_toRat (d : Decimal) {limit : Nat} (h : d.scale ≤ limit) :
    HasDigits d.toRat limit :=
  HasDigits.mono ⟨d.coefficient, rfl⟩ h

/-- A decimal is zero just where it denotes zero, whatever its scale. -/
theorem isZero_iff (d : Decimal) : d.isZero = true ↔ d.toRat = 0 := by
  have hpower : (10 : Rat) ^ d.scale ≠ 0 := by positivity
  rw [isZero, decide_eq_true_iff, toRat, div_eq_zero_iff, or_iff_left hpower, Int.cast_eq_zero]

/-! ### Rounding an exact number -/

/-- Nothing is rounded where there is room for every digit. -/
theorem round?_of_eq {q : Rat} {coefficient : Int} {scale : Nat}
    (hq : q = coefficient / 10 ^ scale) :
    round? q scale
      = if h : Fits coefficient scale then some ⟨coefficient, scale, h⟩ else none := by
  -- with all its digits in front of the point the number is an integer, and an integer is not
  -- rounded
  have hround : roundHalfEven (q * 10 ^ scale) = coefficient := by
    rw [hq, div_mul_cancel₀ _ (by positivity), roundHalfEven_intCast]
  unfold round?
  simp only [hround]

/-- The search ends at the bound it starts from if the number fits there. -/
theorem ofRat?_eq_round? {q : Rat} {scale : Nat} {d : Decimal} (h : round? q scale = some d) :
    ofRat? q scale = some d := by
  cases scale with
  | zero => exact h
  | succ scale => rw [ofRat?, h]

/-- A zero at the end of the fraction is dropped. -/
theorem normalize_append_zero {coefficient : Int} {scale : Nat}
    (h : Fits (coefficient * 10) (scale + 1)) (h' : Fits coefficient scale) :
    normalize ⟨coefficient * 10, scale + 1, h⟩ = normalize ⟨coefficient, scale, h'⟩ := by
  have hdivides : coefficient * 10 % 10 = 0 := Int.mul_emod_left coefficient 10
  have hquotient : coefficient * 10 / 10 = coefficient :=
    Int.mul_ediv_cancel coefficient (by decide)
  unfold normalize
  rw [dropZeros, if_pos hdivides]
  simp only [hquotient]

/-- **Room for one digit more** than an exact number has makes no difference. -/
theorem map_normalize_ofRat?_succ {q : Rat} {limit : Nat} (h : HasDigits q limit) :
    (ofRat? q (limit + 1)).map normalize = (ofRat? q limit).map normalize := by
  obtain ⟨coefficient, hq⟩ := h
  have hmore : q = ((coefficient * 10 : Int) : Rat) / 10 ^ (limit + 1) := by
    rw [hq, pow_succ]
    push_cast
    field_simp
  by_cases hfits : Fits (coefficient * 10) (limit + 1)
  · -- the digit is a zero, and without it the number fits all the more
    have hfits' : Fits coefficient limit := by
      unfold Fits at hfits ⊢
      omega
    have hround : round? q (limit + 1) = some ⟨coefficient * 10, limit + 1, hfits⟩ := by
      rw [round?_of_eq hmore, dif_pos hfits]
    have hround' : round? q limit = some ⟨coefficient, limit, hfits'⟩ := by
      rw [round?_of_eq hq, dif_pos hfits']
    rw [ofRat?_eq_round? hround, ofRat?_eq_round? hround', Option.map_some, Option.map_some,
      normalize_append_zero hfits hfits']
  · -- the search passes the larger bound and comes to the smaller one
    have hround : round? q (limit + 1) = none := by
      rw [round?_of_eq hmore, dif_neg hfits]
    rw [ofRat?, hround]

/-- Room for any number of digits more makes no difference. -/
theorem map_normalize_ofRat?_of_le {q : Rat} {limit limit' : Nat} (h : HasDigits q limit)
    (hle : limit ≤ limit') :
    (ofRat? q limit').map normalize = (ofRat? q limit).map normalize := by
  -- one digit more at a time; the number keeps having its digits on the way (`HasDigits.mono`)
  induction hle with
  | refl => rfl
  | @step limit' hle ih =>
    rw [map_normalize_ofRat?_succ (h.mono hle), ih]

/-- There is no room behind the last digit that a decimal can have. -/
theorem ofRat?_of_maxScale_le (q : Rat) {limit : Nat} (h : maxScale ≤ limit) :
    ofRat? q limit = ofRat? q maxScale := by
  induction h with
  | refl => rfl
  | @step limit hle ih =>
    -- no decimal has this scale, so the search passes on whatever the coefficient is
    have hround : round? q (limit + 1) = none :=
      dif_neg fun hfits => absurd hfits.2 (Nat.not_le.mpr (Nat.lt_succ_of_le hle))
    rw [ofRat?, hround]
    exact ih

/-- **The number as a decimal**, with as many digits as there is room for, and without zeros at the
end of its fraction. -/
def nearest? (q : Rat) : Option Decimal :=
  (ofRat? q maxScale).map normalize

/-- **A bound with room for the exact number** gives the same result as no bound at all. -/
theorem map_normalize_ofRat?_eq_nearest? {q : Rat} {limit : Nat} (h : HasDigits q limit) :
    (ofRat? q limit).map normalize = nearest? q := by
  -- a product may ask for more digits than a decimal can have, and then the bound is above the
  -- largest
  rcases Nat.le_total limit maxScale with hle | hle
  · exact (map_normalize_ofRat?_of_le h hle).symm
  · rw [ofRat?_of_maxScale_le q hle, nearest?]

/-! ### The four operations -/

/-- The longer of the two scales has room for a sum. -/
theorem hasDigits_add (a b : Decimal) :
    HasDigits (a.toRat + b.toRat) (max a.scale b.scale) :=
  (a.hasDigits_toRat (Nat.le_max_left _ _)).add (b.hasDigits_toRat (Nat.le_max_right _ _))

theorem hasDigits_sub (a b : Decimal) :
    HasDigits (a.toRat - b.toRat) (max a.scale b.scale) :=
  (a.hasDigits_toRat (Nat.le_max_left _ _)).sub (b.hasDigits_toRat (Nat.le_max_right _ _))

/-- Both scales together have room for a product. -/
theorem hasDigits_mul (a b : Decimal) : HasDigits (a.toRat * b.toRat) (a.scale + b.scale) :=
  (a.hasDigits_toRat (Nat.le_refl _)).mul (b.hasDigits_toRat (Nat.le_refl _))

/-- **Addition** is the exact sum as a decimal. -/
theorem add?_eq_nearest? (a b : Decimal) : add? a b = nearest? (a.toRat + b.toRat) :=
  map_normalize_ofRat?_eq_nearest? (hasDigits_add a b)

theorem subtract?_eq_nearest? (a b : Decimal) : subtract? a b = nearest? (a.toRat - b.toRat) :=
  map_normalize_ofRat?_eq_nearest? (hasDigits_sub a b)

theorem multiply?_eq_nearest? (a b : Decimal) : multiply? a b = nearest? (a.toRat * b.toRat) :=
  map_normalize_ofRat?_eq_nearest? (hasDigits_mul a b)

/-- A quotient may have every scale. -/
theorem divide?_eq_nearest? (a b : Decimal) : divide? a b = nearest? (a.toRat / b.toRat) := rfl

section Congruence

variable {a a' b b' : Decimal} (ha : a.toRat = a'.toRat) (hb : b.toRat = b'.toRat)

include ha hb

/-- A sum depends on the numbers that its operands denote, and not on how they are written. -/
theorem add?_congr : add? a b = add? a' b' := by
  rw [add?_eq_nearest?, add?_eq_nearest?, ha, hb]

theorem subtract?_congr : subtract? a b = subtract? a' b' := by
  rw [subtract?_eq_nearest?, subtract?_eq_nearest?, ha, hb]

theorem multiply?_congr : multiply? a b = multiply? a' b' := by
  rw [multiply?_eq_nearest?, multiply?_eq_nearest?, ha, hb]

theorem divide?_congr : divide? a b = divide? a' b' := by
  rw [divide?_eq_nearest?, divide?_eq_nearest?, ha, hb]

/-- Operands are compared as the numbers that they denote. -/
theorem order_congr : order a b = order a' b' := by
  rw [order, order, ha, hb]

end Congruence

end Decimal

end RuleLang
