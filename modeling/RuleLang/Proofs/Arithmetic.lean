import RuleLang.Proofs.Rounding
import RuleLang.Proofs.Simulation

/-!
# Arithmetic

The four arithmetic operators against the operations on numbers that they stand for
(`Operator.exact?`). An application gives the decimal nearest to the exact result, and an overflow
if there is none (`combine_numbers`); everything else is a property of rounding.

* The result is the exact one wherever that is a decimal, and an overflow exactly from the greatest
  coefficient and a half on (`arithmetic_exact_unless_overflow`).
* An exact result in range that is no decimal is rounded, and nothing tells of it. This is where
  sums, differences and products lose digits (`exact_or_overflow_iff`), and they lose them even
  between the greatest decimal and the first overflow
  (`sum_past_greatest_decimal_loses_its_fraction`).
* Results are in the order of the exact results, although two of them can be rounded to different
  numbers of digits (`arithmetic_respects_order`).
-/

namespace RuleLang

/-- The operation on numbers that an arithmetic operator stands for. -/
def Operator.exact? : Operator → Option (Rat → Rat → Rat)
  | add => some (· + ·)
  | subtract => some (· - ·)
  | multiply => some (· * ·)
  | divide => some (· / ·)
  | _ => none

section Application

variable {op : Operator} {f : Rat → Rat → Rat} {a b : Decimal} {value : Value}

/-- **Arithmetic is the exact operation**, rounded to a decimal. -/
theorem combine_numbers (hop : op.exact? = some f) (hb : op = .divide → b.toRat ≠ 0) :
    combine op (.number a) (.number b) = match Decimal.nearest? (f a.toRat b.toRat) with
      | some n => .ok (.number n)
      | none => .error (.overflow op a b) := by
  -- each operation is the nearest decimal of its exact result; what is left is the zero divisor
  cases op with
  | add =>
    cases hop
    rw [← Decimal.add?_eq_nearest?]
    rfl
  | subtract =>
    cases hop
    rw [← Decimal.subtract?_eq_nearest?]
    rfl
  | multiply =>
    cases hop
    rw [← Decimal.multiply?_eq_nearest?]
    rfl
  | divide =>
    cases hop
    have hzero : ¬ b.isZero = true := fun hzero => hb rfl ((Decimal.isZero_iff b).mp hzero)
    rw [← Decimal.divide?_eq_nearest?, combine, quotient, if_neg hzero]
    rfl
  | _ => cases hop

/-- There is a result just where the exact one has a nearest decimal, and this is the result. -/
theorem combine_numbers_eq_ok_iff (hop : op.exact? = some f) (hb : op = .divide → b.toRat ≠ 0) :
    combine op (.number a) (.number b) = .ok value ↔
      ∃ n, Decimal.nearest? (f a.toRat b.toRat) = some n ∧ value = .number n := by
  rw [combine_numbers hop hb]
  cases Decimal.nearest? (f a.toRat b.toRat) with
  | none => simp
  | some n => simp [eq_comm]

/-- There is an overflow just where the exact result is half a unit above the greatest coefficient.
-/
theorem combine_numbers_eq_overflow_iff (hop : op.exact? = some f)
    (hb : op = .divide → b.toRat ≠ 0) :
    combine op (.number a) (.number b) = .error (.overflow op a b) ↔
      (2 : Rat) ^ 96 - 1 / 2 ≤ |f a.toRat b.toRat| := by
  rw [combine_numbers hop hb, ← Decimal.nearest?_eq_none_iff]
  cases Decimal.nearest? (f a.toRat b.toRat) with
  | none => exact iff_of_true rfl rfl
  | some n => exact iff_of_false (fun h => by cases h) (fun h => by cases h)

/-- In range there is a result. -/
theorem exists_nearest? (hop : op.exact? = some f) (hb : op = .divide → b.toRat ≠ 0)
    (hrange : ¬ (2 : Rat) ^ 96 - 1 / 2 ≤ |f a.toRat b.toRat|) :
    ∃ n, Decimal.nearest? (f a.toRat b.toRat) = some n ∧
      combine op (.number a) (.number b) = .ok (.number n) := by
  rw [← combine_numbers_eq_overflow_iff hop hb, combine_numbers hop hb] at hrange
  rw [combine_numbers hop hb]
  cases hn : Decimal.nearest? (f a.toRat b.toRat) with
  | none => exact absurd (by rw [hn]) hrange
  | some n => exact ⟨n, rfl, rfl⟩

end Application

/-! ### Exactness and overflow -/

/-- **Arithmetic is exact wherever it can be.** An application to two numbers, none of them a zero
divisor, is an overflow exactly if the exact result is at least `2 ^ 96 - 1 / 2` in size. Otherwise
it gives a number within the limits of a decimal, without a zero at the end of its fraction and
without a sign if it is zero, and this number is the exact result just if that is a decimal. -/
theorem arithmetic_exact_unless_overflow {op : Operator} {f : Rat → Rat → Rat}
    (hop : op.exact? = some f) {a b : Decimal} (hb : op = .divide → b.toRat ≠ 0) :
    ((apply op (.number a) (.number b)).outcome = .error (.overflow op a b) ↔
      (2 : Rat) ^ 96 - 1 / 2 ≤ |f a.toRat b.toRat|) ∧
    (|f a.toRat b.toRat| < 2 ^ 96 - 1 / 2 →
      ∃ n, (apply op (.number a) (.number b)).outcome = .ok (.number n) ∧
        n.coefficient.natAbs < 2 ^ 96 ∧ n.scale ≤ 28 ∧ n.IsReduced ∧
        (n.toRat = 0 → n.text = "0") ∧
        (n.toRat = f a.toRat b.toRat ↔ Decimal.IsExact (f a.toRat b.toRat))) := by
  rw [outcome_apply]
  refine ⟨combine_numbers_eq_overflow_iff hop hb, fun hrange => ?_⟩
  obtain ⟨n, hn, hresult⟩ := exists_nearest? hop hb (not_le.mpr hrange)
  -- the limits are those of every decimal, and the zeros are taken off by the rounding
  have hreduced := (Decimal.exists_scale_of_nearest? hn).1
  exact ⟨n, hresult, Nat.lt_of_le_pred (by decide) n.fits.1, n.fits.2, hreduced,
    hreduced.text_of_toRat_eq_zero, Decimal.toRat_eq_iff_of_nearest? hn⟩

/-- A half above the greatest decimal is halfway to `2 ^ 96`, and an overflow. A quotient with few
digits is exact. -/
theorem arithmetic_exact_unless_overflow_tie :
    (apply .add (.number ⟨79228162514264337593543950335, 0, by decide⟩)
      (.number ⟨5, 1, by decide⟩)).outcome
        = .error (.overflow .add ⟨79228162514264337593543950335, 0, by decide⟩ ⟨5, 1, by decide⟩) ∧
    ∃ n, (apply .divide (.number ⟨-1, 0, by decide⟩) (.number ⟨800, 2, by decide⟩)).outcome
      = .ok (.number n) ∧ n.toRat = -1 / 8 := by
  constructor
  · have hadd : Operator.exact? .add = some (· + ·) := rfl
    refine (arithmetic_exact_unless_overflow hadd nofun).1.mpr ?_
    norm_num [Decimal.toRat]
  · have hdivide : Operator.exact? .divide = some (· / ·) := rfl
    have hquotient : (⟨-1, 0, by decide⟩ : Decimal).toRat / (⟨800, 2, by decide⟩ : Decimal).toRat
        = -1 / 8 := by
      norm_num [Decimal.toRat]
    have hdivisor : (⟨800, 2, by decide⟩ : Decimal).toRat ≠ 0 := by
      norm_num [Decimal.toRat]
    obtain ⟨n, hn, -, -, -, -, hexact⟩ := (arithmetic_exact_unless_overflow
      (a := ⟨-1, 0, by decide⟩) hdivide fun _ => hdivisor).2 (by rw [hquotient]; norm_num [abs_div])
    rw [hquotient] at hexact
    exact ⟨n, hn, hexact.mpr ⟨⟨-125, 3, by decide⟩, by norm_num [Decimal.toRat]⟩⟩

/-! ### Lost digits -/

/-- **Digits are kept, or an overflow tells of their loss**, exactly where the exact result is a
decimal or out of range. Everywhere else the result is another number, the exact one rounded to
`scale` fraction digits, and one digit more would have been too many for a decimal. -/
theorem exact_or_overflow_iff {op : Operator} {f : Rat → Rat → Rat} (hop : op.exact? = some f)
    (hop' : op ≠ .divide) (a b : Decimal) :
    (((∃ n, (apply op (.number a) (.number b)).outcome = .ok (.number n) ∧
          n.toRat = f a.toRat b.toRat) ∨
        (apply op (.number a) (.number b)).outcome = .error (.overflow op a b)) ↔
      Decimal.IsExact (f a.toRat b.toRat) ∨ (2 : Rat) ^ 96 - 1 / 2 ≤ |f a.toRat b.toRat|) ∧
    (¬ (Decimal.IsExact (f a.toRat b.toRat) ∨ (2 : Rat) ^ 96 - 1 / 2 ≤ |f a.toRat b.toRat|) →
      ∃ n scale, (apply op (.number a) (.number b)).outcome = .ok (.number n) ∧
        n.toRat ≠ f a.toRat b.toRat ∧ |n.toRat - f a.toRat b.toRat| ≤ 1 / 2 / 10 ^ scale ∧
        (scale = 28 ∨ (2 : Rat) ^ 96 - 1 / 2 ≤ |f a.toRat b.toRat| * 10 ^ (scale + 1))) := by
  have hb : op = .divide → b.toRat ≠ 0 := fun hdivide => absurd hdivide hop'
  rw [outcome_apply]
  constructor
  · -- the overflow is on both sides, and without it there is a result to compare
    rw [combine_numbers_eq_overflow_iff hop hb]
    refine or_congr_left' fun hrange => ?_
    obtain ⟨n, hn, hresult⟩ := exists_nearest? hop hb hrange
    rw [hresult, ← Decimal.toRat_eq_iff_of_nearest? hn]
    constructor
    · rintro ⟨n', hn', hexact⟩
      cases hn'
      exact hexact
    · intro hexact
      exact ⟨n, rfl, hexact⟩
  · intro hlost
    obtain ⟨hinexact, hrange⟩ := not_or.mp hlost
    obtain ⟨n, hn, hresult⟩ := exists_nearest? hop hb hrange
    obtain ⟨-, scale, hlargest, hrounded⟩ := Decimal.exists_scale_of_nearest? hn
    refine ⟨n, scale, hresult, fun hexact => hinexact ⟨n, hexact⟩, ?_, ?_⟩
    · rw [hrounded]
      exact Decimal.abs_rounded_sub_le _ scale
    · refine or_iff_not_imp_left.mpr fun hscale => ?_
      -- below the last scale, no room at the next one can only be for want of digits
      have hnext : scale + 1 ≤ Decimal.maxScale :=
        Nat.succ_le_of_lt (Nat.lt_of_le_of_ne hlargest.hasRoom.2 hscale)
      rw [← Decimal.maxCoefficient_add_half, ← not_lt]
      exact fun hlt => hlargest.not_hasRoom _ (Nat.lt_succ_self scale) ⟨hlt, hnext⟩

/-- A product of two small numbers is rounded to zero. -/
theorem exact_or_overflow_iff_vanishing_product :
    (apply .multiply (.number ⟨1, 14, by decide⟩) (.number ⟨1, 15, by decide⟩)).outcome
        = .ok (.number ⟨0, 0, by decide⟩) ∧
      ¬ Decimal.IsExact (1 / 10 ^ 29) := by
  have hzero : (apply .multiply (.number ⟨1, 14, by decide⟩) (.number ⟨1, 15, by decide⟩)).outcome
      = .ok (.number ⟨0, 0, by decide⟩) := by
    decide +kernel
  have hproduct : (⟨1, 14, by decide⟩ : Decimal).toRat * (⟨1, 15, by decide⟩ : Decimal).toRat
      = 1 / 10 ^ 29 := by
    norm_num [Decimal.toRat]
  have hmultiply : Operator.exact? .multiply = some (· * ·) := rfl
  have hiff := (exact_or_overflow_iff hmultiply (by decide) ⟨1, 14, by decide⟩
    ⟨1, 15, by decide⟩).1
  rw [hproduct, hzero] at hiff
  refine ⟨hzero, fun hexact => ?_⟩
  -- an exact product would have to be the zero that is found
  rcases hiff.mpr (Or.inl hexact) with ⟨n, hn, hn'⟩ | hoverflow
  · cases hn
    norm_num [Decimal.toRat] at hn'
  · cases hoverflow

/-- **A sum past the greatest decimal** is that decimal, and no overflow: less than a half is left
out. -/
theorem sum_past_greatest_decimal_loses_its_fraction :
    (apply .add (.number ⟨79228162514264337593543950335, 0, by decide⟩)
        (.number ⟨4, 1, by decide⟩)).outcome
      = .ok (.number ⟨79228162514264337593543950335, 0, by decide⟩) ∧
    (⟨79228162514264337593543950335, 0, by decide⟩ : Decimal).toRat
      < (⟨79228162514264337593543950335, 0, by decide⟩ : Decimal).toRat
        + (⟨4, 1, by decide⟩ : Decimal).toRat := by
  refine ⟨by decide +kernel, ?_⟩
  norm_num [Decimal.toRat]

/-! ### Order -/

/-- The operator `<=` is true of two values. -/
def Value.AtMost (a b : Value) : Prop :=
  (apply .lessEqual a b).outcome = .ok (.boolean true)

/-- Where both applications have a result, the first one is at most the second. -/
def ResultsInOrder (op : Operator) (a b a' b' : Decimal) : Prop :=
  ∀ value value', (apply op (.number a) (.number b)).outcome = .ok value →
    (apply op (.number a') (.number b')).outcome = .ok value' → value.AtMost value'

/-- The order of decimals is that of the rational numbers that they stand for. -/
theorem Decimal.isLE_order_iff {a b : Decimal} : (a.order b).isLE = true ↔ a.toRat ≤ b.toRat := by
  unfold order compareOfLessAndEq
  split
  · exact iff_of_true rfl (le_of_lt ‹_›)
  · split
    · exact iff_of_true rfl (le_of_eq ‹_›)
    · refine iff_of_false (fun h => by cases h) fun hle => ?_
      exact (lt_or_eq_of_le hle).elim ‹_› ‹_›

/-- The operator `<=` decides the order of the rational numbers. -/
theorem Value.atMost_number_iff {a b : Decimal} :
    AtMost (.number a) (.number b) ↔ a.toRat ≤ b.toRat := by
  rw [AtMost, outcome_apply, ← Decimal.isLE_order_iff]
  change Except.ok (boolean (a.order b).isLE) = Except.ok (boolean true) ↔ _
  simp

/-- Results are in the order of the exact results. -/
theorem resultsInOrder_of_exact {op : Operator} {f : Rat → Rat → Rat} (hop : op.exact? = some f)
    {a b a' b' : Decimal} (hb : op = .divide → b.toRat ≠ 0) (hb' : op = .divide → b'.toRat ≠ 0)
    (hexact : f a.toRat b.toRat ≤ f a'.toRat b'.toRat) : ResultsInOrder op a b a' b' := by
  -- rounding keeps the order, so the exact results decide
  intro value value' hvalue hvalue'
  rw [outcome_apply] at hvalue hvalue'
  obtain ⟨n, hn, rfl⟩ := (combine_numbers_eq_ok_iff hop hb).mp hvalue
  obtain ⟨n', hn', rfl⟩ := (combine_numbers_eq_ok_iff hop hb').mp hvalue'
  exact Value.atMost_number_iff.mpr (Decimal.toRat_le_of_nearest? hexact hn hn')

/-- **Arithmetic respects order** in spite of rounding. The results for two numbers in order are in
the same order if a number is added to both or subtracted from both, or if both are multiplied by a
number that is not negative or divided by one that is positive. They are in the opposite order if
both numbers are subtracted from one, or if they are positive and one that is not negative is
divided by both. -/
theorem arithmetic_respects_order {a b : Decimal} (hab : Value.AtMost (.number a) (.number b))
    (c : Decimal) :
    ResultsInOrder .add a c b c ∧ ResultsInOrder .subtract a c b c ∧
      ResultsInOrder .subtract c b c a ∧
      (0 ≤ c.toRat → ResultsInOrder .multiply a c b c) ∧
      (0 < c.toRat → ResultsInOrder .divide a c b c) ∧
      (0 ≤ c.toRat → 0 < a.toRat → ResultsInOrder .divide c b c a) := by
  have hle := Value.atMost_number_iff.mp hab
  refine ⟨?_, ?_, ?_, fun hc => ?_, fun hc => ?_, fun hc ha => ?_⟩
  · exact resultsInOrder_of_exact rfl nofun nofun (add_le_add_left hle _)
  · exact resultsInOrder_of_exact rfl nofun nofun (sub_le_sub_right hle _)
  · exact resultsInOrder_of_exact rfl nofun nofun (sub_le_sub_left hle _)
  · exact resultsInOrder_of_exact rfl nofun nofun (mul_le_mul_of_nonneg_right hle hc)
  · exact resultsInOrder_of_exact rfl (fun _ => ne_of_gt hc) (fun _ => ne_of_gt hc)
      (div_le_div_of_nonneg_right hle (le_of_lt hc))
  · exact resultsInOrder_of_exact rfl (fun _ => ne_of_gt (lt_of_lt_of_le ha hle))
      (fun _ => ne_of_gt ha) (div_le_div_of_nonneg_left hc ha hle)

/-- The sum of the larger numbers has one digit less, and is rounded up. The larger number has the
smaller inverse. -/
theorem arithmetic_respects_order_across_scales :
    (∃ value value', (apply .add (.number ⟨79228162514264337593543950334, 1, by decide⟩)
        (.number ⟨1, 1, by decide⟩)).outcome = .ok value ∧
      (apply .add (.number ⟨79228162514264337593543950335, 1, by decide⟩)
        (.number ⟨1, 1, by decide⟩)).outcome = .ok value' ∧
      value.text = "7922816251426433759354395033.5" ∧
      value'.text = "7922816251426433759354395034" ∧ value.AtMost value') ∧
    ResultsInOrder .divide ⟨1, 0, by decide⟩ ⟨7, 0, by decide⟩ ⟨1, 0, by decide⟩
      ⟨3, 0, by decide⟩ := by
  constructor
  · have hsum : (apply .add (.number ⟨79228162514264337593543950334, 1, by decide⟩)
        (.number ⟨1, 1, by decide⟩)).outcome
          = .ok (.number ⟨79228162514264337593543950335, 1, by decide⟩) := by
      decide +kernel
    have hsum' : (apply .add (.number ⟨79228162514264337593543950335, 1, by decide⟩)
        (.number ⟨1, 1, by decide⟩)).outcome
          = .ok (.number ⟨7922816251426433759354395034, 0, by decide⟩) := by
      decide +kernel
    have hab : Value.AtMost (.number ⟨79228162514264337593543950334, 1, by decide⟩)
        (.number ⟨79228162514264337593543950335, 1, by decide⟩) := by
      unfold Value.AtMost
      decide +kernel
    obtain ⟨hadd, -⟩ := arithmetic_respects_order hab ⟨1, 1, by decide⟩
    exact ⟨_, _, hsum, hsum', by decide +kernel, by decide +kernel, hadd _ _ hsum hsum'⟩
  · have hab : Value.AtMost (.number ⟨3, 0, by decide⟩) (.number ⟨7, 0, by decide⟩) := by
      unfold Value.AtMost
      decide +kernel
    obtain ⟨-, -, -, -, -, hdivide⟩ := arithmetic_respects_order hab ⟨1, 0, by decide⟩
    exact hdivide (by norm_num [Decimal.toRat]) (by norm_num [Decimal.toRat])

end RuleLang
