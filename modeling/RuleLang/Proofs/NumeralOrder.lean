import Mathlib.Algebra.Order.Round
import RuleLang.Proofs.Arithmetic
import RuleLang.Proofs.Classification
import RuleLang.Proofs.NumeralRange

/-!
# Numerals in order

A numeral may have more digits than a decimal can hold, and then it is rounded when it is read. It
is never read as less than a smaller numeral is (`classify_respects_order`).

The digits are appended one by one, and there are three ways for this to end: the digits may run
out, the next one may not fit, or rounding by it may itself leave the range and cost a digit more.
All three come to the same, which has no digits in it (`IsRead`). The numeral denotes a number, and
what is read is this number, rounded to the largest scale that has room for it, a half going away
from zero. In the third case the scale that was reached had no room after all, since the number is
only just below `2 ^ 96` there, and the digit that rounding costs is the one that was too many
(`isRead_of_greatest`).

So reading is a rounding to the largest scale like that of results, up to where a half goes, and
order is that of any such rounding.
-/

namespace RuleLang

/-- The nearest integer, a half going away from zero. -/
def roundHalfAway (q : Rat) : Int :=
  if q < 0 then -round (-q) else round q

theorem roundHalfAway_of_nonneg {q : Rat} (h : 0 ≤ q) : roundHalfAway q = round q :=
  if_neg (not_lt.mpr h)

/-- The nearest integer of a larger number is no less. -/
theorem round_le_round_of_le {p q : Rat} (h : p ≤ q) : round p ≤ round q := by
  rw [round_eq, round_eq]
  exact Int.floor_le_floor (by linarith)

/-- A half that goes away from zero makes a rounding too: near, monotone and the same on both
sides of zero. -/
theorem isRounding_roundHalfAway : IsRounding roundHalfAway where
  near q := by
    unfold roundHalfAway
    split
    · have habs : |q - (-round (-q) : Int)| = |-q - round (-q)| := by
        push_cast
        rw [← abs_neg]
        congr 1
        ring
      rw [habs]
      exact abs_sub_round (-q)
    · exact abs_sub_round q
  mono {p q} h := by
    unfold roundHalfAway
    -- the two halves of the definition meet at zero, which rounds to zero on either side
    by_cases hp : p < 0
    · rw [if_pos hp]
      have hpround : 0 ≤ round (-p) := by
        have := round_le_round_of_le (show (0 : Rat) ≤ -p by linarith)
        rwa [round_zero] at this
      by_cases hq : q < 0
      · rw [if_pos hq]
        exact neg_le_neg (round_le_round_of_le (neg_le_neg h))
      · rw [if_neg hq]
        have hqround := round_le_round_of_le (not_lt.mp hq)
        rw [round_zero] at hqround
        omega
    · rw [if_neg hp, if_neg (not_lt.mpr (le_trans (not_lt.mp hp) h))]
      exact round_le_round_of_le h
  neg q := by
    unfold roundHalfAway
    rcases lt_trichotomy q 0 with hq | rfl | hq
    · rw [if_neg (by linarith), if_pos hq, neg_neg]
    · simp
    · rw [if_pos (by linarith), if_neg (by linarith), neg_neg]

open Decimal (HasRoom IsLargestScale roundedBy maxCoefficient maxScale Fits)

/-! ### What a number is read as -/

/-- **What a number is read as**, however many digits it is written with: the number, rounded to the
largest scale that has room. -/
def IsRead (q r : Rat) : Prop :=
  ∃ scale, IsLargestScale q scale ∧ r = roundedBy roundHalfAway q scale

namespace IsRead

variable {p q r s : Rat} {coefficient scale : Nat}

theorem neg (h : IsRead q r) : IsRead (-q) (-r) := by
  obtain ⟨scale, hscale, rfl⟩ := h
  exact ⟨scale, hscale.neg, (Decimal.roundedBy_neg isRounding_roundHalfAway q scale).symm⟩

/-- **Reading respects order.** -/
theorem le_of_le (hr : IsRead p r) (hs : IsRead q s) (h : p ≤ q) : r ≤ s := by
  obtain ⟨scale, hscale, rfl⟩ := hr
  obtain ⟨scale', hscale', rfl⟩ := hs
  exact Decimal.roundedBy_le_of_isLargestScale isRounding_roundHalfAway h hscale hscale'

/-- A number is read as it is if its digits fit. -/
theorem of_fits (h : Fits (coefficient : Int) scale) :
    IsRead (coefficient / 10 ^ scale) (coefficient / 10 ^ scale) := by
  have hroom : HasRoom (coefficient / 10 ^ scale) scale := Decimal.hasRoom_toRat ⟨_, scale, h⟩
  obtain ⟨largest, hle, hlargest⟩ := Decimal.exists_isLargestScale hroom
  -- there may be room for more digits, but the number needs none of them
  have hdigits : HasDigits (coefficient / 10 ^ scale) scale := ⟨coefficient, rfl⟩
  exact ⟨largest, hlargest,
    (Decimal.roundedBy_of_hasDigits isRounding_roundHalfAway (hdigits.mono hle)).symm⟩

/-- At the largest scale, a number is read as the nearest coefficient. -/
theorem of_near (hpos : 0 ≤ q) (hlargest : IsLargestScale q scale)
    (hbelow : coefficient - 1 / 2 ≤ q * 10 ^ scale)
    (habove : q * 10 ^ scale < coefficient + 1 / 2) : IsRead q (coefficient / 10 ^ scale) := by
  have hround : roundHalfAway (q * 10 ^ scale) = coefficient := by
    -- a number that is not negative is rounded by the floor of the number and a half
    rw [roundHalfAway_of_nonneg (by positivity), round_eq, Int.floor_eq_iff]
    push_cast
    constructor <;> linarith
  refine ⟨scale, hlargest, ?_⟩
  rw [roundedBy, hround, Int.cast_natCast]

end IsRead

/-! ### Reading the digits -/

namespace Numeral

variable {coefficient scale coefficient' scale' : Nat} {ds : List Digit} {d : Digit}

/-- The number that `coefficient / 10 ^ scale` becomes with more digits behind it. -/
def continued (coefficient scale : Nat) (ds : List Digit) : Rat :=
  (ds.foldl (fun n d => 10 * n + d.val) coefficient : Nat) / 10 ^ (scale + ds.length)

/-- A digit behind the number belongs to the number, with one place more. -/
theorem continued_cons :
    continued coefficient scale (d :: ds)
      = continued (10 * coefficient + d.val) (scale + 1) ds := by
  rw [continued, continued, List.foldl_cons, List.length_cons, Nat.add_right_comm, Nat.add_assoc]

/-- A numeral denotes its whole digits with the fraction behind them, up to the sign. -/
theorem abs_toRat_eq_continued (n : Numeral) :
    |n.toRat| = continued (Digit.value n.whole) 0 n.fraction := by
  rw [abs_toRat, continued, Nat.zero_add, Digit.value, Digit.value, List.foldl_append]

/-- The digits behind a number are less than one unit of its last digit. -/
theorem continued_bounds (coefficient scale : Nat) (ds : List Digit) :
    (coefficient : Rat) ≤ continued coefficient scale ds * 10 ^ scale ∧
      continued coefficient scale ds * 10 ^ scale < coefficient + 1 := by
  have hvalue : (Digit.value ds : Rat) < 10 ^ ds.length := by exact_mod_cast Digit.value_lt ds
  have hunit : (0 : Rat) < 10 ^ ds.length := by positivity
  -- in units of the last digit, the digits behind it are a fraction
  have hshift : continued coefficient scale ds * 10 ^ scale
      = coefficient + Digit.value ds / 10 ^ ds.length := by
    rw [continued, Digit.foldl_eq, pow_add]
    push_cast
    field_simp
  have hless : (Digit.value ds : Rat) / 10 ^ ds.length < 1 := (div_lt_one hunit).mpr hvalue
  have hmore : (0 : Rat) ≤ Digit.value ds / 10 ^ ds.length := by positivity
  rw [hshift]
  constructor <;> linarith

/-- Where the last digit of the greatest coefficient cannot be rounded up, there was no room for
this digit: it is dropped, and the one before it is rounded up. -/
theorem isRead_of_greatest {q : Rat} (hpos : 0 ≤ q) (hscale : scale + 1 ≤ maxScale)
    (hbelow : (maxCoefficient : Rat) + 1 / 2 ≤ q * 10 ^ (scale + 1))
    (habove : q * 10 ^ (scale + 1) < maxCoefficient + 1) :
    IsRead q (((maxCoefficient + 1 + 4) / 10 : Nat) / 10 ^ scale) := by
  have hnoRoom : ¬ HasRoom q (scale + 1) := fun hroom =>
    absurd ((Decimal.hasRoom_iff_of_nonneg hpos).mp hroom).1 (not_lt.mpr hbelow)
  obtain ⟨front, hfront⟩ := Decimal.exists_maxCoefficient_eq
  have hrounded : (maxCoefficient + 1 + 4) / 10 = front + 1 := by omega
  rw [pow_succ, ← mul_assoc, hfront] at hbelow habove
  push_cast at hbelow habove
  -- with one digit less the coefficient is a tenth of the greatest
  have hroom : HasRoom q scale := by
    refine (Decimal.hasRoom_iff_of_nonneg hpos).mpr ⟨?_, Nat.le_of_succ_le hscale⟩
    have hfrontPos : (0 : Rat) ≤ front := by positivity
    rw [hfront]
    push_cast
    linarith
  rw [hrounded]
  refine .of_near hpos (.of_succ hroom hnoRoom) ?_ ?_
  · push_cast
    linarith
  · push_cast
    linarith

/-- **The first digit that does not fit.** The number `q` starts with the digits of the coefficient
and this one. -/
theorem isRead_of_roundUp? {q : Rat} (hfits : Fits (coefficient : Int) scale)
    (hnext : ¬ Fits (10 * coefficient + d.val : Nat) (scale + 1))
    (hbelow : ((10 * coefficient + d.val : Nat) : Rat) ≤ q * 10 ^ (scale + 1))
    (habove : q * 10 ^ (scale + 1) < (10 * coefficient + d.val : Nat) + 1)
    (h : roundUp? coefficient scale d = some (coefficient', scale')) :
    IsRead q (coefficient' / 10 ^ scale') := by
  rw [fits_iff] at hfits hnext
  have hpos : 0 ≤ q := by
    have hunit : (0 : Rat) < 10 ^ (scale + 1) := by positivity
    exact nonneg_of_mul_nonneg_left (le_trans (by positivity) hbelow) hunit
  -- room for the number would be room for its digits up to this one
  have hnoRoom : ¬ HasRoom q (scale + 1) := by
    intro hroom
    obtain ⟨hsize, hscale⟩ := (Decimal.hasRoom_iff_of_nonneg hpos).mp hroom
    have hlt : ((10 * coefficient + d.val : Nat) : Rat) < (maxCoefficient + 1 : Nat) := by
      push_cast at hbelow ⊢
      linarith
    exact hnext ⟨Nat.lt_succ_iff.mp (by exact_mod_cast hlt), hscale⟩
  have hten : (d.val : Rat) + 1 ≤ 10 := by exact_mod_cast Nat.succ_le_of_lt d.isLt
  rw [pow_succ, ← mul_assoc] at hbelow habove
  push_cast at hbelow habove
  unfold roundUp? at h
  split at h
  · -- the digit is dropped
    cases h
    have hdigit : (d.val : Rat) + 1 ≤ 5 := by exact_mod_cast Nat.succ_le_of_lt ‹_›
    have hcoefficient : (coefficient : Rat) ≤ maxCoefficient := by exact_mod_cast hfits.1
    have hroom : HasRoom q scale :=
      (Decimal.hasRoom_iff_of_nonneg hpos).mpr ⟨by linarith, hfits.2⟩
    exact .of_near hpos (.of_succ hroom hnoRoom) (by linarith) (by linarith)
  · rename_i hdigit
    have hdigit : (5 : Rat) ≤ d.val := by exact_mod_cast Nat.not_lt.mp hdigit
    split at h
    · -- the digit before it is rounded up
      rename_i hmore
      cases h
      have hmore : (coefficient : Rat) + 1 ≤ maxCoefficient := by exact_mod_cast hmore
      have hroom : HasRoom q scale :=
        (Decimal.hasRoom_iff_of_nonneg hpos).mpr ⟨by linarith, hfits.2⟩
      refine .of_near hpos (.of_succ hroom hnoRoom) ?_ ?_
      · push_cast
        linarith
      · push_cast
        linarith
    · -- rounding up would leave the range, and costs a digit more
      rename_i hgreatest
      split at h
      · cases h
      · rename_i hscale
        cases h
        obtain ⟨fewer, rfl⟩ := Nat.exists_eq_add_one_of_ne_zero hscale
        obtain rfl : coefficient = maxCoefficient := by omega
        rw [Nat.add_sub_cancel]
        exact isRead_of_greatest hpos hfits.2 (by linarith) (by linarith)

/-- **The digits behind the point**, one after the other. -/
theorem isRead_of_appendFraction? (hfits : Fits (coefficient : Int) scale)
    (h : appendFraction? coefficient scale ds = some (coefficient', scale')) :
    IsRead (continued coefficient scale ds) (coefficient' / 10 ^ scale') := by
  induction ds generalizing coefficient scale with
  | nil =>
    cases h
    exact .of_fits hfits
  | cons d ds ih =>
    rw [appendFraction?] at h
    rw [continued_cons]
    split at h
    · exact ih ‹_› h
    · -- the digits behind this one are never looked at, and need only be bounded
      obtain ⟨hbelow, habove⟩ := continued_bounds (10 * coefficient + d.val) (scale + 1) ds
      exact isRead_of_roundUp? hfits ‹_› hbelow habove h

end Numeral

/-- **A numeral is read as the number that it denotes**, rounded. -/
theorem isRead_of_ofNumeral? {n : Numeral} {d : Decimal} (h : Decimal.ofNumeral? n = some d) :
    IsRead n.toRat d.toRat := by
  obtain ⟨⟨coefficient, scale⟩, hmagnitude, hd⟩ := Option.bind_eq_some_iff.mp h
  have hread : IsRead |n.toRat| (coefficient / 10 ^ scale) := by
    rw [Numeral.magnitude?] at hmagnitude
    split at hmagnitude
    · have hfits : Fits (Digit.value n.whole : Int) 0 := Numeral.fits_iff.mpr ⟨‹_›, Nat.zero_le _⟩
      rw [Numeral.abs_toRat_eq_continued]
      exact Numeral.isRead_of_appendFraction? hfits hmagnitude
    · cases hmagnitude
  change (if fits : Fits (if n.negative then -(coefficient : Int) else coefficient) scale then
    some (⟨_, scale, fits⟩ : Decimal) else none) = some d at hd
  generalize hsigned : (if n.negative then -(coefficient : Int) else coefficient) = signed at hd
  split at hd
  · cases hd
    change IsRead n.toRat (signed / 10 ^ scale)
    -- the sign of the numeral is that of the decimal
    rw [← hsigned]
    rw [Numeral.abs_toRat] at hread
    unfold Numeral.toRat
    cases n.negative with
    | true =>
      have hneg := hread.neg
      simpa [neg_div] using hneg
    | false => simpa using hread
  · cases hd

/-! ### Order -/

/-- A numeral that is classified as a number is in range, and is the number that is read. -/
theorem Value.exists_of_kind_number {s : String} {n : Numeral}
    (hs : Numeral.read? s.toList = some n) (hkind : (classify s).kind = .number) :
    ∃ d, Decimal.ofNumeral? n = some d ∧ classify s = .number d := by
  have hclassify := classify_of_numeral hs
  rw [String.ofList_toList] at hclassify
  rw [hclassify] at hkind ⊢
  cases hd : Decimal.ofNumeral? n with
  | none =>
    rw [hd] at hkind
    cases hkind
  | some d => exact ⟨d, rfl, rfl⟩

/-- **Reading numerals preserves order.** Two numerals that are classified as numbers are in the
order of the numbers that they denote. Rounding may make them equal, but takes neither of them past
the other. -/
theorem classify_respects_order {s t : String} {n n' : Numeral}
    (hs : Numeral.read? s.toList = some n) (ht : Numeral.read? t.toList = some n')
    (hs' : (Value.classify s).kind = .number) (ht' : (Value.classify t).kind = .number)
    (hle : n.toRat ≤ n'.toRat) : (Value.classify s).AtMost (Value.classify t) := by
  obtain ⟨d, hd, hclassify⟩ := Value.exists_of_kind_number hs hs'
  obtain ⟨d', hd', hclassify'⟩ := Value.exists_of_kind_number ht ht'
  rw [hclassify, hclassify', Value.atMost_number_iff]
  exact (isRead_of_ofNumeral? hd).le_of_le (isRead_of_ofNumeral? hd') hle

/-- The smaller numeral has room for one digit more, and loses it where rounding it up leaves the
range. Both are read as the same number. -/
theorem classify_respects_order_at_last_digit :
    (Value.classify "7.92281625142643375935439503355").AtMost
        (Value.classify "7.9228162514264337593543950336") ∧
      (Value.classify "7.92281625142643375935439503355").text = "7.922816251426433759354395034" ∧
      (Value.classify "7.9228162514264337593543950336").text = "7.922816251426433759354395034" := by
  have hless : Numeral.read? "7.92281625142643375935439503355".toList = some ⟨false, [7],
      [9, 2, 2, 8, 1, 6, 2, 5, 1, 4, 2, 6, 4, 3, 3, 7, 5, 9, 3, 5, 4, 3, 9, 5, 0, 3, 3, 5, 5]⟩ :=
    rfl
  have hmore : Numeral.read? "7.9228162514264337593543950336".toList = some ⟨false, [7],
      [9, 2, 2, 8, 1, 6, 2, 5, 1, 4, 2, 6, 4, 3, 3, 7, 5, 9, 3, 5, 4, 3, 9, 5, 0, 3, 3, 6]⟩ :=
    rfl
  refine ⟨classify_respects_order hless hmore (by decide +kernel) (by decide +kernel) ?_,
    by decide +kernel, by decide +kernel⟩
  norm_num [Numeral.toRat, Digit.value]

end RuleLang
