import Mathlib.Data.Rat.Cast.Order
import Mathlib.Tactic.Linarith
import Mathlib.Tactic.Positivity
import RuleLang.Proofs.NumeralText

/-!
# The range of numerals

Which numerals denote no decimal. A numeral is out of range if, rounded to an integer, it is past
the greatest coefficient (`Numeral.OutOfRange`), that is from the greatest coefficient and a half
on. How many digits it has behind the point does not matter, since all of them can be rounded off.

The digits are read one by one and never all at once, so this is not how the limit is tested. But
the test can fail for two reasons only: the integer part is too large, or it is the greatest
coefficient itself and the first digit behind it rounds it up (`Numeral.outOfRange_iff`). Once a
digit behind the point has been taken, the one that rounding costs can be paid.
-/

namespace RuleLang

open Decimal (maxCoefficient Fits)

namespace Numeral

variable {n : Numeral} {coefficient scale : Nat} {ds : List Digit}

/-- **A numeral that is too large**, rounded half up, for the greatest coefficient. -/
def OutOfRange (n : Numeral) : Prop :=
  (maxCoefficient : Rat) + 1 / 2 ≤ |n.toRat|

/-! ### In terms of digits -/

/-- Up to its sign, a numeral denotes the number of all its digits, by the places behind
the point. -/
theorem abs_toRat (n : Numeral) :
    |n.toRat| = (Digit.value (n.whole ++ n.fraction) : Nat) / 10 ^ n.fraction.length := by
  have hnonneg :
      (0 : Rat) ≤ (Digit.value (n.whole ++ n.fraction) : Nat) / 10 ^ n.fraction.length := by
    positivity
  unfold toRat
  cases n.negative with
  | true =>
    change |-_| = _
    rw [abs_neg, abs_of_nonneg hnonneg]
  | false => exact abs_of_nonneg hnonneg

/-- The sign does not matter. -/
theorem outOfRange_congr {n' : Numeral} (hwhole : n.whole = n'.whole)
    (hfraction : n.fraction = n'.fraction) : n.OutOfRange ↔ n'.OutOfRange := by
  rw [OutOfRange, OutOfRange, abs_toRat, abs_toRat, hwhole, hfraction]

/-- The limit in whole numbers, with the fraction in units of its last digit and everything
doubled. -/
theorem outOfRange_iff_value :
    n.OutOfRange ↔ (2 * maxCoefficient + 1) * 10 ^ n.fraction.length
      ≤ 2 * (Digit.value n.whole * 10 ^ n.fraction.length + Digit.value n.fraction) := by
  have hpos : (0 : Rat) < 10 ^ n.fraction.length := by positivity
  -- times twice the power of ten, both sides are whole numbers
  rw [OutOfRange, abs_toRat, le_div_iff₀ hpos, Digit.value_append, ← @Nat.cast_le Rat]
  push_cast
  constructor
  · intro h
    linarith
  · intro h
    linarith

/-- A fraction is at least a half exactly if its first digit is at least five. -/
theorem half_le_value_iff :
    10 ^ ds.length ≤ 2 * Digit.value ds ↔ ∃ d ∈ ds.head?, 5 ≤ d.val := by
  cases ds with
  | nil => simp [Digit.value]
  | cons d ds =>
    have hvalue : Digit.value (d :: ds) = d.val * 10 ^ ds.length + Digit.value ds := by
      rw [← Digit.foldl_eq, Digit.value, List.foldl_cons, Nat.mul_zero, Nat.zero_add]
    have hrest := Digit.value_lt ds
    have hhead : (∃ d' ∈ (d :: ds).head?, 5 ≤ d'.val) ↔ 5 ≤ d.val := by simp
    rw [hhead, hvalue, List.length_cons, Nat.pow_succ]
    constructor
    · intro h
      by_contra hlt
      -- even nines behind a four do not make a half
      have hle := Nat.mul_le_mul_right (10 ^ ds.length) (show d.val ≤ 4 by omega)
      omega
    · intro h
      have hle := Nat.mul_le_mul_right (10 ^ ds.length) h
      omega

/-- A numeral is out of range if its whole digits are past the greatest coefficient, or are that
coefficient and the first digit behind the point is at least five. -/
theorem outOfRange_iff :
    n.OutOfRange ↔ maxCoefficient < Digit.value n.whole ∨
      Digit.value n.whole = maxCoefficient ∧ ∃ d ∈ n.fraction.head?, 5 ≤ d.val := by
  have hfraction := Digit.value_lt n.fraction
  rw [outOfRange_iff_value, ← half_le_value_iff]
  -- what is left is arithmetic, in which the greatest coefficient is any number
  generalize Digit.value n.whole = whole
  generalize Digit.value n.fraction = fraction at hfraction ⊢
  generalize 10 ^ n.fraction.length = unit at hfraction ⊢
  generalize maxCoefficient = greatest
  rcases Nat.lt_trichotomy whole greatest with hlt | rfl | hlt
  · -- the fraction is less than the one that is missing
    have hle := Nat.mul_le_mul_right unit (show whole + 1 ≤ greatest from hlt)
    rw [Nat.add_mul] at hle
    refine iff_of_false ?_ ?_
    · rw [Nat.add_mul, Nat.mul_assoc]
      omega
    · omega
  · rw [Nat.add_mul, Nat.mul_assoc]
    omega
  · have hle := Nat.mul_le_mul_right unit (show greatest + 1 ≤ whole from hlt)
    rw [Nat.add_mul] at hle
    refine iff_of_true ?_ (Or.inl hlt)
    rw [Nat.add_mul, Nat.mul_assoc]
    omega

/-! ### In terms of the reading -/

/-- A coefficient without a sign fits if it is at most the greatest and its scale at most
the largest. -/
theorem fits_iff : Fits (coefficient : Int) scale ↔
    coefficient ≤ maxCoefficient ∧ scale ≤ Decimal.maxScale := by
  rw [Fits, Int.natAbs_natCast]

/-- Rounding fails on the greatest integer alone. -/
theorem roundUp?_eq_none_iff (h : coefficient ≤ maxCoefficient) {d : Digit} :
    roundUp? coefficient scale d = none ↔
      scale = 0 ∧ coefficient = maxCoefficient ∧ 5 ≤ d.val := by
  unfold roundUp?
  split
  · refine iff_of_false (fun hnone => by cases hnone) ?_
    omega
  · split
    · refine iff_of_false (fun hnone => by cases hnone) ?_
      omega
    · split
      · refine iff_of_true rfl ?_
        omega
      · refine iff_of_false (fun hnone => by cases hnone) ?_
        omega

/-- Appending digits fails on the greatest integer alone, if the first of them rounds it up. -/
theorem appendFraction?_eq_none_iff (h : coefficient ≤ maxCoefficient) :
    appendFraction? coefficient scale ds = none ↔
      scale = 0 ∧ coefficient = maxCoefficient ∧ ∃ d ∈ ds.head?, 5 ≤ d.val := by
  induction ds generalizing coefficient scale with
  | nil =>
    refine iff_of_false (fun hnone => by cases hnone) ?_
    simp
  | cons d ds ih =>
    rw [appendFraction?]
    split
    · -- a digit that is taken makes room for rounding, and the greatest coefficient takes none
      rename_i hfits
      rw [fits_iff] at hfits
      have hpos : 0 < maxCoefficient := by decide
      rw [ih hfits.1]
      refine iff_of_false ?_ ?_
      · omega
      · omega
    · rw [roundUp?_eq_none_iff h]
      simp

/-- What is read is within the limits. -/
theorem fits_of_appendFraction? (h : Fits (coefficient : Int) scale) {digits : Nat × Nat}
    (hread : appendFraction? coefficient scale ds = some digits) :
    Fits (digits.1 : Int) digits.2 := by
  induction ds generalizing coefficient scale with
  | nil =>
    cases hread
    exact h
  | cons d ds ih =>
    rw [appendFraction?] at hread
    split at hread
    · exact ih ‹_› hread
    · -- rounding up may cost a digit, and then the scale is one less
      rw [fits_iff] at h ⊢
      unfold roundUp? at hread
      split at hread
      · cases hread
        exact h
      · split at hread
        · cases hread
          exact ⟨‹_›, h.2⟩
        · split at hread
          · cases hread
          · cases hread
            dsimp only
            omega

/-- The digits of a numeral fail to be read just where it is out of range. -/
theorem magnitude?_eq_none_iff : n.magnitude? = none ↔ n.OutOfRange := by
  rw [outOfRange_iff, magnitude?]
  split
  · rename_i hle
    rw [appendFraction?_eq_none_iff hle, or_iff_right (Nat.not_lt.mpr hle)]
    exact ⟨And.right, fun h => ⟨rfl, h⟩⟩
  · rename_i hlt
    exact iff_of_true rfl (Or.inl (Nat.lt_of_not_le hlt))

end Numeral

/-- **A numeral denotes a decimal unless it is out of range.** -/
theorem Decimal.ofNumeral?_eq_none_iff {n : Numeral} :
    Decimal.ofNumeral? n = none ↔ n.OutOfRange := by
  rw [← Numeral.magnitude?_eq_none_iff, ofNumeral?]
  cases hread : n.magnitude? with
  | none => exact iff_of_true rfl rfl
  | some digits =>
    obtain ⟨coefficient, scale⟩ := digits
    refine iff_of_false ?_ (by simp)
    have hfits : Fits (coefficient : Int) scale := by
      rw [Numeral.magnitude?] at hread
      split at hread
      · have hwhole : Fits (Digit.value n.whole : Int) 0 := by
          rw [Numeral.fits_iff]
          exact ⟨‹_›, Nat.zero_le _⟩
        exact Numeral.fits_of_appendFraction? hwhole hread
      · cases hread
    -- the sign leaves the limits alone
    have hsigned : Fits (if n.negative then -(coefficient : Int) else coefficient) scale := by
      split
      · exact ⟨by rw [Int.natAbs_neg]; exact hfits.1, hfits.2⟩
      · exact hfits
    change (if fits : Fits (if n.negative then -(coefficient : Int) else coefficient) scale then
      some (⟨_, _, fits⟩ : Decimal) else none) ≠ none
    rw [dif_pos hsigned]
    simp

end RuleLang
