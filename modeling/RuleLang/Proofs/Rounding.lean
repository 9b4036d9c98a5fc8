import Mathlib.Tactic.Linarith
import Mathlib.Tactic.NormNum
import RuleLang.Proofs.Scales

/-!
# Rounding to a decimal

Which decimal an exact number is rounded to (`Decimal.nearest?`). Every operation on decimals is the
exact one, rounded in this way, so what is shown here of rounding holds of all of them.

To an integer, rounding is described by its result (`IsNearestEven`): the result is as near as an
integer can be, and even if two are. Nothing more is used of it. That there is one such integer and
that rounding respects order both follow from this, since two numbers whose nearest integers were
the wrong way round would lie halfway between them, and of two neighbours only one is even.

To a decimal, there are two things to settle, the digits and how many of them there are. The
greatest coefficient is odd, so a number halfway to the next one is rounded away from it: the
rounded coefficient is within the limits exactly below that half (`Decimal.HasRoom`). This is a
condition on the size of the number alone. What has room with some digits has room with fewer, so
the search for the largest scale finds one unless not even the integer has room
(`Decimal.nearest?_eq_none_iff`), and it drops no digit of a number that is a decimal itself
(`Decimal.toRat_eq_iff_of_nearest?`).

The scale changes with the size of the number, and where it does the order of the results needs an
argument of its own (`Decimal.roundedBy_le_roundedBy_of_lt`). With one digit less, a number that is
just too large is at least the greatest coefficient and a half, divided by ten, and this is rounded
up: the greatest coefficient ends in a five. Where a half goes does not matter for this, so order is
shown for every way to round to an integer (`IsRounding`).
-/

namespace RuleLang

/-! ### To an integer -/

/-- **The integer nearest to a number**, and the even one of two. -/
structure IsNearestEven (q : Rat) (n : Int) : Prop where
  near : |q - n| ≤ 1 / 2
  even_of_half : |q - n| = 1 / 2 → n % 2 = 0

/-- **Rounding half to even** gives the nearest integer, and the even one of two. -/
theorem isNearestEven_roundHalfEven (q : Rat) : IsNearestEven q (roundHalfEven q) := by
  have hle : (q.floor : Rat) ≤ q := Rat.floor_le q
  have hlt : q < q.floor + 1 := by
    have h := Rat.lt_floor_add_one q
    push_cast at h
    exact h
  -- the three cases of the definition: nearer to the floor, nearer above, and the half
  unfold roundHalfEven
  dsimp only
  split
  · have habs : |q - q.floor| = q - q.floor := abs_of_nonneg (by linarith)
    exact ⟨by rw [habs]; linarith, by rw [habs]; intro h; linarith⟩
  · -- from here on the number is nearer to the integer above it, or as near
    have habs : |q - (q.floor + 1 : Int)| = q.floor + 1 - q := by
      push_cast
      rw [abs_of_nonpos (by linarith)]
      ring
    split
    · exact ⟨by rw [habs]; linarith, by rw [habs]; intro h; linarith⟩
    · have hhalf : q - q.floor = 1 / 2 := by linarith
      split
      · rename_i heven
        exact ⟨by rw [hhalf]; norm_num, fun _ => heven⟩
      · exact ⟨by rw [habs]; linarith, fun _ => by omega⟩

namespace IsNearestEven

variable {p q : Rat} {m n : Int}

/-- **Rounding respects order.** -/
theorem le_of_le (hp : IsNearestEven p m) (hq : IsNearestEven q n) (h : p ≤ q) : m ≤ n := by
  by_contra hlt
  have hnext : (n : Rat) + 1 ≤ m := by exact_mod_cast Int.not_le.mp hlt
  have hbelow := (abs_le.mp hp.near).1
  have habove := (abs_le.mp hq.near).2
  -- both numbers are halfway between the two integers, which are neighbours
  have hm : p - m = -(1 / 2) := by linarith
  have hn : q - n = 1 / 2 := by linarith
  have hneighbours : m = n + 1 := by
    have : (m : Rat) = n + 1 := by linarith
    exact_mod_cast this
  have hmeven := hp.even_of_half (by rw [hm, abs_neg]; norm_num)
  have hneven := hq.even_of_half (by rw [hn]; norm_num)
  omega

/-- There is one such integer only. -/
theorem unique (hm : IsNearestEven q m) (hn : IsNearestEven q n) : m = n :=
  Int.le_antisymm (hm.le_of_le hn (le_refl q)) (hn.le_of_le hm (le_refl q))

/-- Rounding does not depend on the sign. -/
theorem neg (h : IsNearestEven q n) : IsNearestEven (-q) (-n) := by
  have habs : |-q - (-n : Int)| = |q - n| := by
    push_cast
    rw [neg_sub_neg, abs_sub_comm]
  refine ⟨by rw [habs]; exact h.near, fun hhalf => ?_⟩
  have := h.even_of_half (habs ▸ hhalf)
  omega

end IsNearestEven

/-- A number and its negative are rounded alike. -/
theorem roundHalfEven_neg (q : Rat) : roundHalfEven (-q) = -roundHalfEven q :=
  (isNearestEven_roundHalfEven (-q)).unique (isNearestEven_roundHalfEven q).neg

/-- **A way to round** to an integer: to one of the nearest, in the order of the numbers, and
without regard to the sign. -/
structure IsRounding (round : Rat → Int) : Prop where
  near (q : Rat) : |q - round q| ≤ 1 / 2
  mono {p q : Rat} (h : p ≤ q) : round p ≤ round q
  neg (q : Rat) : round (-q) = -round q

/-- An integer is left as it is. -/
theorem IsRounding.intCast {round : Rat → Int} (hround : IsRounding round) (n : Int) :
    round n = n := by
  -- two integers that are less than one apart are the same
  obtain ⟨hbelow, habove⟩ := abs_le.mp (hround.near n)
  have hlt : (round n : Rat) < n + 1 := by linarith
  have hgt : (n : Rat) < round n + 1 := by linarith
  have hlt' : round n < n + 1 := by exact_mod_cast hlt
  have hgt' : n < round n + 1 := by exact_mod_cast hgt
  omega

/-- Rounding half to even is a way to round. -/
theorem isRounding_roundHalfEven : IsRounding roundHalfEven where
  near q := (isNearestEven_roundHalfEven q).near
  mono h := (isNearestEven_roundHalfEven _).le_of_le (isNearestEven_roundHalfEven _) h
  neg := roundHalfEven_neg

/-- An odd integer is the nearest below the half behind it, and there no longer. -/
theorem roundHalfEven_le_iff {q : Rat} {n : Int} (hodd : n % 2 = 1) :
    roundHalfEven q ≤ n ↔ q < n + 1 / 2 := by
  have hnearest := isNearestEven_roundHalfEven q
  obtain ⟨hbelow, habove⟩ := abs_le.mp hnearest.near
  constructor
  · intro h
    have hcast : (roundHalfEven q : Rat) ≤ n := by exact_mod_cast h
    refine lt_of_le_of_ne (by linarith) fun hhalf => ?_
    -- on the half itself the odd integer would be the even one of two
    have heq : (roundHalfEven q : Rat) = n := by linarith
    have heven := hnearest.even_of_half (by rw [heq, hhalf, add_sub_cancel_left]; norm_num)
    have : roundHalfEven q = n := by exact_mod_cast heq
    omega
  · intro h
    have hcast : (roundHalfEven q : Rat) < n + 1 := by linarith
    exact Int.lt_add_one_iff.mp (by exact_mod_cast hcast)

/-- An odd bound on the size of the integer is one on the size of the number. -/
theorem natAbs_roundHalfEven_le_iff {q : Rat} {n : Nat} (hodd : n % 2 = 1) :
    (roundHalfEven q).natAbs ≤ n ↔ |q| < n + 1 / 2 := by
  -- the bound is used twice, for the number and for its negative
  have habove := roundHalfEven_le_iff (q := q) (n := n) (by omega)
  have hbelow := roundHalfEven_le_iff (q := -q) (n := n) (by omega)
  rw [roundHalfEven_neg] at hbelow
  push_cast at habove hbelow
  rw [abs_lt, ← habove, ← neg_lt, ← hbelow]
  omega

namespace Decimal

variable {p q : Rat} {scale scale' limit : Nat} {d : Decimal}

/-! ### To a number of digits -/

/-- The number rounded to `scale` fraction digits, however large it is. -/
def rounded (q : Rat) (scale : Nat) : Rat :=
  roundHalfEven (q * 10 ^ scale) / 10 ^ scale

/-- The number rounded to `scale` fraction digits in the given way. -/
def roundedBy (round : Rat → Int) (q : Rat) (scale : Nat) : Rat :=
  round (q * 10 ^ scale) / 10 ^ scale

theorem rounded_eq_roundedBy (q : Rat) (scale : Nat) :
    rounded q scale = roundedBy roundHalfEven q scale := rfl

/-- **A decimal has room** for the number, rounded to `scale` fraction digits. -/
def HasRoom (q : Rat) (scale : Nat) : Prop :=
  |q| * 10 ^ scale < maxCoefficient + 1 / 2 ∧ scale ≤ maxScale

/-- **The largest scale** that there is room for. -/
structure IsLargestScale (q : Rat) (scale : Nat) : Prop where
  hasRoom : HasRoom q scale
  not_hasRoom : ∀ more, scale < more → ¬ HasRoom q more

/-- Rounding moves a number by half a unit of its last digit at most. -/
theorem abs_rounded_sub_le (q : Rat) (scale : Nat) :
    |rounded q scale - q| ≤ 1 / 2 / 10 ^ scale := by
  have hpos : (0 : Rat) < 10 ^ scale := by positivity
  have hnear := (isNearestEven_roundHalfEven (q * 10 ^ scale)).near
  have hdiff : rounded q scale - q
      = -(q * 10 ^ scale - roundHalfEven (q * 10 ^ scale)) / 10 ^ scale := by
    rw [rounded]
    field_simp
    ring
  rw [hdiff, abs_div, abs_neg, abs_of_pos hpos]
  gcongr

/-- A number that has no more digits than that is left as it is. -/
theorem roundedBy_of_hasDigits {round : Rat → Int} (hround : IsRounding round)
    (h : HasDigits q scale) : roundedBy round q scale = q := by
  obtain ⟨coefficient, rfl⟩ := h
  rw [roundedBy, div_mul_cancel₀ _ (by positivity), hround.intCast]

theorem hasRoom_iff_of_nonneg (hpos : 0 ≤ q) :
    HasRoom q scale ↔ q * 10 ^ scale < maxCoefficient + 1 / 2 ∧ scale ≤ maxScale := by
  rw [HasRoom, abs_of_nonneg hpos]

theorem hasRoom_neg : HasRoom (-q) scale ↔ HasRoom q scale := by
  rw [HasRoom, HasRoom, abs_neg]

theorem IsLargestScale.neg (h : IsLargestScale q scale) : IsLargestScale (-q) scale :=
  ⟨hasRoom_neg.mpr h.hasRoom, fun more hlt hneg => h.not_hasRoom more hlt (hasRoom_neg.mp hneg)⟩

/-- Fewer digits take less room. -/
theorem HasRoom.of_le (h : HasRoom q scale') (hle : scale ≤ scale') : HasRoom q scale := by
  obtain ⟨hsize, hscale⟩ := h
  -- each digit less divides by ten
  refine ⟨lt_of_le_of_lt ?_ hsize, Nat.le_trans hle hscale⟩
  gcongr
  norm_num

/-- There is no room for more digits if there is none for one more. -/
theorem IsLargestScale.of_succ (h : HasRoom q scale) (hnext : ¬ HasRoom q (scale + 1)) :
    IsLargestScale q scale :=
  ⟨h, fun _ hlt hroom => hnext (hroom.of_le hlt)⟩

/-- There is a largest scale if there is room at all. -/
theorem exists_isLargestScale (h : HasRoom q scale) :
    ∃ largest, scale ≤ largest ∧ IsLargestScale q largest := by
  -- the scales are bounded, so a greatest one that has room exists
  classical
  exact ⟨Nat.findGreatest (HasRoom q) maxScale, Nat.le_findGreatest h.2 h,
    Nat.findGreatest_spec h.2 h,
    fun more hlt hroom => Nat.findGreatest_is_greatest hlt hroom.2 hroom⟩

/-- The greatest coefficient is odd, as its last binary digit is a one. -/
theorem maxCoefficient_odd : maxCoefficient % 2 = 1 := by decide

/-- The last digit of the greatest coefficient is a five. -/
theorem exists_maxCoefficient_eq : ∃ front : Nat, maxCoefficient = 10 * front + 5 :=
  ⟨maxCoefficient / 10, by decide⟩

theorem maxCoefficient_add_half : (maxCoefficient : Rat) + 1 / 2 = 2 ^ 96 - 1 / 2 := by
  norm_num [maxCoefficient]

/-- **The rounded number fits** just where there is room for it. -/
theorem fits_roundHalfEven_iff :
    Fits (roundHalfEven (q * 10 ^ scale)) scale ↔ HasRoom q scale := by
  have hpos : (0 : Rat) < 10 ^ scale := by positivity
  rw [Fits, natAbs_roundHalfEven_le_iff maxCoefficient_odd, abs_mul, abs_of_pos hpos, HasRoom]

/-- Rounding to a scale gives the decimal with the rounded coefficient at this scale. -/
theorem round?_eq_some_iff :
    round? q scale = some d ↔ d.coefficient = roundHalfEven (q * 10 ^ scale) ∧ d.scale = scale := by
  obtain ⟨coefficient, scale', fits⟩ := d
  unfold round?
  dsimp only
  split
  · simp only [Option.some.injEq, Decimal.mk.injEq]
    exact and_congr eq_comm eq_comm
  · refine iff_of_false (fun h => by cases h) ?_
    rintro ⟨rfl, rfl⟩
    exact absurd fits ‹_›

/-- It fails just where there is no room. -/
theorem round?_eq_none_iff : round? q scale = none ↔ ¬ HasRoom q scale := by
  rw [← fits_roundHalfEven_iff]
  unfold round?
  dsimp only
  split
  · exact iff_of_false (fun h => by cases h) (not_not_intro ‹_›)
  · exact iff_of_true rfl ‹_›

/-! ### The search for the scale -/

/-- **The scale that the search ends at** is the largest one that has room. -/
theorem ofRat?_eq_some (h : ofRat? q limit = some d) :
    d.coefficient = roundHalfEven (q * 10 ^ d.scale) ∧
      ∀ scale, d.scale < scale → scale ≤ limit → ¬ HasRoom q scale := by
  -- on the limit, from which the search goes down: the scales that it passed have no room
  induction limit with
  | zero =>
    obtain ⟨hcoefficient, hscale⟩ := round?_eq_some_iff.mp h
    exact ⟨by rw [hscale]; exact hcoefficient, fun scale => by omega⟩
  | succ limit ih =>
    rw [ofRat?] at h
    split at h
    · rename_i d' hround
      cases h
      obtain ⟨hcoefficient, hscale⟩ := round?_eq_some_iff.mp hround
      exact ⟨by rw [hscale]; exact hcoefficient, fun scale => by omega⟩
    · rename_i hround
      obtain ⟨hcoefficient, hnone⟩ := ih h
      refine ⟨hcoefficient, fun scale hlt hle => ?_⟩
      rcases Nat.eq_or_lt_of_le hle with rfl | hlt'
      · exact round?_eq_none_iff.mp hround
      · exact hnone scale hlt (Nat.lt_succ_iff.mp hlt')

/-- There is no result only if not even the integer has room. -/
theorem ofRat?_eq_none_iff : ofRat? q limit = none ↔ ¬ HasRoom q 0 := by
  induction limit with
  | zero => exact round?_eq_none_iff
  | succ limit ih =>
    rw [ofRat?]
    split
    · rename_i d hround
      have hroom : HasRoom q (limit + 1) := by
        by_contra hnone
        rw [round?_eq_none_iff.mpr hnone] at hround
        cases hround
      exact iff_of_false (fun h => by cases h) (not_not_intro (hroom.of_le (Nat.zero_le _)))
    · exact ih

/-! ### Zeros at the end -/

/-- The last digit behind the point is not a zero. -/
def IsReduced (d : Decimal) : Prop :=
  d.scale ≠ 0 → d.coefficient % 10 ≠ 0

/-- Taking zeros off keeps the number and leaves none at the end of the fraction. -/
theorem dropZeros_spec (coefficient : Int) (scale : Nat) (h : Fits coefficient scale) :
    (dropZeros coefficient scale h).toRat = coefficient / 10 ^ scale ∧
      (dropZeros coefficient scale h).IsReduced := by
  -- on the scale, which falls by one with each zero
  induction scale generalizing coefficient with
  | zero => exact ⟨rfl, fun hscale => absurd rfl hscale⟩
  | succ scale ih =>
    rw [dropZeros]
    split
    · rename_i hzero
      obtain ⟨htoRat, hreduced⟩ := ih (coefficient / 10) _
      refine ⟨?_, hreduced⟩
      have hcoefficient : (coefficient : Rat) = (coefficient / 10 : Int) * 10 := by
        exact_mod_cast (Int.ediv_mul_cancel (Int.dvd_of_emod_eq_zero hzero)).symm
      rw [htoRat, hcoefficient, pow_succ, mul_div_mul_right _ _ (by norm_num)]
    · rename_i hdigit
      exact ⟨rfl, fun _ => hdigit⟩

theorem toRat_normalize (d : Decimal) : d.normalize.toRat = d.toRat :=
  (dropZeros_spec d.coefficient d.scale d.fits).1

theorem isReduced_normalize (d : Decimal) : d.normalize.IsReduced :=
  (dropZeros_spec d.coefficient d.scale d.fits).2

/-- Zero is written without a point and without a sign. -/
theorem IsReduced.text_of_toRat_eq_zero (h : d.IsReduced) (hzero : d.toRat = 0) :
    d.text = "0" := by
  have hcoefficient : d.coefficient = 0 := of_decide_eq_true ((isZero_iff d).mpr hzero)
  have hscale : d.scale = 0 := by
    by_contra hscale
    exact h hscale (by rw [hcoefficient]; rfl)
  obtain ⟨coefficient, scale, fits⟩ := d
  cases hcoefficient
  cases hscale
  simp [text, digits]

/-! ### The decimal nearest to a number -/

/-- **There is no nearest decimal** of numbers half a unit or more above the greatest
coefficient. -/
theorem nearest?_eq_none_iff : nearest? q = none ↔ (2 : Rat) ^ 96 - 1 / 2 ≤ |q| := by
  rw [nearest?, Option.map_eq_none_iff, ofRat?_eq_none_iff, HasRoom, pow_zero, mul_one,
    and_iff_left (Nat.zero_le _), not_lt, maxCoefficient_add_half]

/-- **The nearest decimal** is the number, rounded to the largest scale that has room. -/
theorem exists_scale_of_nearest? (h : nearest? q = some d) :
    d.IsReduced ∧ ∃ scale, IsLargestScale q scale ∧ d.toRat = rounded q scale := by
  obtain ⟨d', hd', rfl⟩ := Option.map_eq_some_iff.mp h
  obtain ⟨hcoefficient, hlargest⟩ := ofRat?_eq_some hd'
  refine ⟨isReduced_normalize d', d'.scale, ⟨?_, fun more hlt hroom => ?_⟩, ?_⟩
  · rw [← fits_roundHalfEven_iff, ← hcoefficient]
    exact d'.fits
  · exact hlargest more hlt hroom.2 hroom
  · rw [toRat_normalize, toRat, hcoefficient, rounded]

/-! ### Exact numbers -/

/-- **The number is a decimal** just as it is, with no digit too many. -/
def IsExact (q : Rat) : Prop :=
  ∃ d : Decimal, d.toRat = q

/-- A decimal has room for the number that it is. -/
theorem hasRoom_toRat (d : Decimal) : HasRoom d.toRat d.scale := by
  have hpos : (0 : Rat) < 10 ^ d.scale := by positivity
  -- shifted by its scale, the decimal is its coefficient again
  have hsize : |d.toRat| * 10 ^ d.scale = d.coefficient.natAbs := by
    rw [toRat, abs_div, abs_of_pos hpos, div_mul_cancel₀ _ (ne_of_gt hpos), Nat.cast_natAbs,
      Int.cast_abs]
  have hle : (d.coefficient.natAbs : Rat) ≤ maxCoefficient := by exact_mod_cast d.fits.1
  refine ⟨?_, d.fits.2⟩
  rw [hsize]
  linarith

/-- **A number that is a decimal** is not rounded, and no other is left as it is. -/
theorem toRat_eq_iff_of_nearest? (h : nearest? q = some d) : d.toRat = q ↔ IsExact q := by
  constructor
  · intro hexact
    exact ⟨d, hexact⟩
  · rintro ⟨e, rfl⟩
    obtain ⟨-, scale, hlargest, htoRat⟩ := exists_scale_of_nearest? h
    -- the search from the largest scale down ends before it drops a digit that the number has
    have hle : e.scale ≤ scale := by
      by_contra hlt
      exact hlargest.not_hasRoom e.scale (Nat.lt_of_not_le hlt) e.hasRoom_toRat
    rw [htoRat, rounded_eq_roundedBy,
      roundedBy_of_hasDigits isRounding_roundHalfEven (e.hasDigits_toRat hle)]

/-! ### Order -/

section Order

variable {round : Rat → Int} (hround : IsRounding round)
include hround

/-- At one scale, rounding respects order. -/
theorem roundedBy_le_roundedBy (h : p ≤ q) (scale : Nat) :
    roundedBy round p scale ≤ roundedBy round q scale := by
  have hscaled : p * 10 ^ scale ≤ q * 10 ^ scale := mul_le_mul_of_nonneg_right h (by positivity)
  have hle := hround.mono hscaled
  unfold roundedBy
  gcongr

theorem roundedBy_neg (q : Rat) (scale : Nat) :
    roundedBy round (-q) scale = -roundedBy round q scale := by
  rw [roundedBy, neg_mul, hround.neg, Int.cast_neg, neg_div, roundedBy]

/-- What a decimal has room for is rounded to no more than the greatest coefficient. -/
theorem roundedBy_le_of_hasRoom (h : HasRoom q scale) :
    roundedBy round q scale ≤ maxCoefficient / 10 ^ scale := by
  have hsize : q * 10 ^ scale < maxCoefficient + 1 / 2 :=
    lt_of_le_of_lt (mul_le_mul_of_nonneg_right (le_abs_self q) (by positivity)) h.1
  have hnear := (abs_le.mp (hround.near (q * 10 ^ scale))).1
  -- less than half a unit too much is rounded away
  have hlt : (round (q * 10 ^ scale) : Rat) < (maxCoefficient : Int) + 1 := by
    push_cast
    linarith
  have hle : round (q * 10 ^ scale) ≤ maxCoefficient :=
    Int.lt_add_one_iff.mp (by exact_mod_cast hlt)
  have hcast : (round (q * 10 ^ scale) : Rat) ≤ maxCoefficient := by exact_mod_cast hle
  unfold roundedBy
  gcongr

/-- A number that has no room for one digit more is rounded, without this digit, to no less than the
greatest coefficient is with it. -/
theorem maxCoefficient_le_roundedBy (hpos : 0 ≤ q) (hscale : scale + 1 ≤ maxScale)
    (h : ¬ HasRoom q (scale + 1)) :
    (maxCoefficient : Rat) / 10 ^ (scale + 1) ≤ roundedBy round q scale := by
  obtain ⟨front, hfront⟩ := exists_maxCoefficient_eq
  have hsize : (maxCoefficient : Rat) + 1 / 2 ≤ q * 10 ^ scale * 10 := by
    by_contra hlt
    refine h ((hasRoom_iff_of_nonneg hpos).mpr ⟨?_, hscale⟩)
    rw [pow_succ, ← mul_assoc]
    exact not_le.mp hlt
  have hnear := (abs_le.mp (hround.near (q * 10 ^ scale))).2
  rw [hfront] at hsize ⊢
  push_cast at hsize ⊢
  -- the final five and a half behind it are more than half of ten
  have hup : (front : Int) + 1 ≤ round (q * 10 ^ scale) := by
    have hlt : ((front : Int) : Rat) < round (q * 10 ^ scale) := by
      push_cast
      linarith
    exact_mod_cast hlt
  have hcast : (front : Rat) + 1 ≤ round (q * 10 ^ scale) := by exact_mod_cast hup
  rw [roundedBy, pow_succ, mul_comm (10 ^ scale : Rat), ← div_div]
  gcongr
  linarith

/-- **Across scales**: the larger number has room for fewer digits. -/
theorem roundedBy_le_roundedBy_of_lt (hpq : p ≤ q) (hlt : scale' < scale) (hp : HasRoom p scale)
    (hq : IsLargestScale q scale') : roundedBy round p scale ≤ roundedBy round q scale' := by
  have hpositive : 0 ≤ q := by
    -- a number below zero would be smaller in size than the other
    by_contra hneg
    refine hq.not_hasRoom scale hlt ⟨lt_of_le_of_lt ?_ hp.1, hp.2⟩
    rw [abs_of_neg (not_le.mp hneg), abs_of_neg (lt_of_le_of_lt hpq (not_le.mp hneg))]
    gcongr
  have hscale : scale' + 1 ≤ maxScale := Nat.le_trans hlt hp.2
  -- both are compared with the greatest coefficient at one scale in between
  calc roundedBy round p scale
      ≤ maxCoefficient / 10 ^ scale := roundedBy_le_of_hasRoom hround hp
    _ ≤ maxCoefficient / 10 ^ (scale' + 1) := by
        gcongr
        · norm_num
        · exact hlt
    _ ≤ roundedBy round q scale' :=
        maxCoefficient_le_roundedBy hround hpositive hscale (hq.not_hasRoom _ (Nat.lt_succ_self _))

/-- **Rounding to the largest scale respects order**, whatever the scales of the two numbers. -/
theorem roundedBy_le_of_isLargestScale (hpq : p ≤ q) (hp : IsLargestScale p scale)
    (hq : IsLargestScale q scale') : roundedBy round p scale ≤ roundedBy round q scale' := by
  rcases Nat.lt_trichotomy scale scale' with hlt | rfl | hlt
  · -- the smaller number has room for fewer digits: with the signs turned it is the larger one
    have hcross :=
      roundedBy_le_roundedBy_of_lt hround (neg_le_neg hpq) hlt hq.neg.hasRoom hp.neg
    rw [roundedBy_neg hround, roundedBy_neg hround] at hcross
    exact neg_le_neg_iff.mp hcross
  · exact roundedBy_le_roundedBy hround hpq scale
  · exact roundedBy_le_roundedBy_of_lt hround hpq hlt hp.hasRoom hq

end Order

/-- **Nearest decimals are in order**, whatever their scales. -/
theorem toRat_le_of_nearest? {a b : Decimal} (hpq : p ≤ q) (ha : nearest? p = some a)
    (hb : nearest? q = some b) : a.toRat ≤ b.toRat := by
  obtain ⟨-, scale, hscale, ha⟩ := exists_scale_of_nearest? ha
  obtain ⟨-, scale', hscale', hb⟩ := exists_scale_of_nearest? hb
  rw [ha, hb, rounded_eq_roundedBy, rounded_eq_roundedBy]
  exact roundedBy_le_of_isLargestScale isRounding_roundHalfEven hpq hscale hscale'

end Decimal

end RuleLang
