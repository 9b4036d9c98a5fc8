import RuleLang.Proofs.EngineAgreement
import RuleLang.Proofs.KindInference
import RuleLang.Proofs.Scales

/-!
# The spelling of operands

A number can be written with zeros behind its fraction, and a moment with other marks between its
fields or without a time that is midnight. Values that differ in no more than that are alike
(`Value.Alike`): they are the pairs that the equality operator holds true of, and the pairs of one
and the same value (`Value.alike_iff`).

An expression keeps the spelling of its operands up to the texts of its errors, but nothing it
computes depends on it. Two applications of an operator to alike operands agree outright, in the
same value or in errors of one kind (`agree_combine`): numbers are added, multiplied and compared as
the numbers they denote, moments are compared as moments, and all other operands that an operator is
defined for are alike only if they are the same. So two trees with alike leaves have alike values,
and the same value wherever the root is an operator (`Expr.Alike.agree_of_binary`).
-/

namespace RuleLang

namespace Value

/-- **Alike values**: the same value, two decimals of one number, or two texts of one moment. -/
inductive Alike : Value → Value → Prop where
  | same (value : Value) : Alike value value
  | number {a b : Decimal} (h : a.toRat = b.toRat) : Alike (.number a) (.number b)
  | datetime (text text' : String) (m : Moment) : Alike (.datetime text m) (.datetime text' m)

/-- The equality operator is true of alike values, where it is defined, and of no others. -/
theorem alike_iff {a b : Value} : a.Alike b ↔ a = b ∨ same? a b = some true := by
  constructor
  · intro h
    cases h with
    | same => exact Or.inl rfl
    | number h => exact Or.inr (by rw [same?, decide_eq_true h])
    | datetime text text' m => exact Or.inr (by rw [same?, decide_eq_true rfl])
  · rintro (rfl | hsame)
    · exact .same a
    · -- equality is defined for four pairs of kinds, and only two of them have more than one
      -- spelling
      unfold same? at hsame
      split at hsame
      · exact .number (of_decide_eq_true (Option.some.inj hsame))
      · rw [of_decide_eq_true (Option.some.inj hsame)]
        exact .same _
      · rw [of_decide_eq_true (Option.some.inj hsame)]
        exact .datetime _ _ _
      · rw [of_decide_eq_true (Option.some.inj hsame)]
        exact .same _
      · cases hsame

namespace Alike

variable {a b : Value}

theorem kind_eq (h : a.Alike b) : a.kind = b.kind := by
  cases h <;> rfl

/-- A value that is alike to a number is a number too, and denotes the same. -/
theorem exists_numbers (h : a.Alike b) (hkind : a.kind = .number) :
    ∃ x y : Decimal, a = .number x ∧ b = .number y ∧ x.toRat = y.toRat := by
  cases h with
  | same =>
    cases a with
    | number x => exact ⟨x, x, rfl, rfl, rfl⟩
    | _ => cases hkind
  | @number x y h => exact ⟨x, y, rfl, rfl, h⟩
  | datetime => cases hkind

/-- A value that is alike to a moment is a text of that moment. -/
theorem exists_moment (h : a.Alike b) (hkind : a.kind = .datetime) :
    ∃ text text' m, a = .datetime text m ∧ b = .datetime text' m := by
  cases h with
  | same =>
    cases a with
    | datetime text m => exact ⟨text, text, m, rfl, rfl⟩
    | _ => cases hkind
  | number => cases hkind
  | datetime text text' m => exact ⟨text, text', m, rfl, rfl⟩

/-- Values of other kinds have one spelling. -/
theorem eq_of_kind (h : a.Alike b) (hnumber : a.kind ≠ .number) (hdatetime : a.kind ≠ .datetime) :
    a = b := by
  cases h with
  | same => rfl
  | number => exact absurd rfl hnumber
  | datetime => exact absurd rfl hdatetime

end Alike

end Value

/-! ### One application -/

/-- An operator is defined for two numbers, for two moments, and for operands of kinds that have one
spelling. -/
theorem Operator.cases_of_mem_operandKinds {op : Operator} :
    ∀ kinds ∈ op.operandKinds, (kinds.1 = .number ∧ kinds.2 = .number) ∨
      (kinds.1 = .datetime ∧ kinds.2 = .datetime) ∨
      (kinds.1 ≠ .number ∧ kinds.1 ≠ .datetime) ∧ kinds.2 ≠ .number ∧ kinds.2 ≠ .datetime := by
  cases op <;> decide

/-- A comparison that comes out the same on two pairs of operands agrees on them, also where it is
not defined. -/
theorem agree_verdict {op : Operator} (held : Option Bool) {a a' b b' : Value} :
    Agree (verdict op a b held) (verdict op a' b' held) := by
  cases held <;> rfl

/-- An operation that gives the same on two pairs of numbers agrees on them, also where it
overflows. -/
theorem agree_compute {op : Operator} {f : Decimal → Decimal → Option Decimal} {x x' y y' : Decimal}
    (h : f x y = f x' y') :
    Agree (compute op f (.number x) (.number y)) (compute op f (.number x') (.number y')) := by
  unfold compute
  dsimp only
  rw [h]
  cases f x' y' <;> rfl

/-- Numbers count as what they denote. -/
theorem agree_combine_numbers (op : Operator) {x x' y y' : Decimal} (hx : x.toRat = x'.toRat)
    (hy : y.toRat = y'.toRat) :
    Agree (combine op (.number x) (.number y)) (combine op (.number x') (.number y')) := by
  have hsame : same? (.number x) (.number y) = same? (.number x') (.number y') := by
    rw [same?, same?, hx, hy]
  have horder : order? (.number x) (.number y) = order? (.number x') (.number y') := by
    rw [order?, order?, Decimal.order_congr hx hy]
  cases op with
  | add => exact agree_compute (Decimal.add?_congr hx hy)
  | subtract => exact agree_compute (Decimal.subtract?_congr hx hy)
  | multiply => exact agree_compute (Decimal.multiply?_congr hx hy)
  | divide =>
    -- the divisors are zero together, whatever their scales
    have hzero : y.isZero = y'.isZero := by
      rw [Bool.eq_iff_iff, Decimal.isZero_iff, Decimal.isZero_iff, hy]
    change Agree (if y.isZero then _ else _) (if y'.isZero then _ else _)
    rw [hzero]
    split
    · rfl
    · exact agree_compute (Decimal.divide?_congr hx hy)
  | equal | notEqual =>
    rw [combine, combine, hsame]
    exact agree_verdict _
  | greaterThan | greaterEqual | lessThan | lessEqual =>
    rw [combine, combine, horder]
    exact agree_verdict _
  | contains | notContains | and | or | leftParen | rightParen => rfl

/-- Moments count as moments: no operator looks at their texts. -/
theorem agree_combine_datetimes (op : Operator) (text text' other other' : String) (m n : Moment) :
    Agree (combine op (.datetime text m) (.datetime other n))
      (combine op (.datetime text' m) (.datetime other' n)) := by
  cases op with
  | equal | notEqual =>
    rw [combine, combine, same?, same?]
    exact agree_verdict _
  | greaterThan | greaterEqual | lessThan | lessEqual =>
    rw [combine, combine, order?, order?]
    exact agree_verdict _
  | _ => rfl

/-- **An operator applied to alike operands** gives the same value, or errors of one kind. -/
theorem agree_combine (op : Operator) {a a' b b' : Value} (ha : a.Alike a') (hb : b.Alike b') :
    Agree (combine op a b) (combine op a' b') := by
  by_cases hkinds : (a.kind, b.kind) ∈ op.operandKinds
  · rcases Operator.cases_of_mem_operandKinds _ hkinds with
      ⟨hleft, hright⟩ | ⟨hleft, hright⟩ | hothers
    · obtain ⟨x, x', rfl, rfl, hx⟩ := ha.exists_numbers hleft
      obtain ⟨y, y', rfl, rfl, hy⟩ := hb.exists_numbers hright
      exact agree_combine_numbers op hx hy
    · obtain ⟨text, text', m, rfl, rfl⟩ := ha.exists_moment hleft
      obtain ⟨other, other', n, rfl, rfl⟩ := hb.exists_moment hright
      exact agree_combine_datetimes op text text' other other' m n
    · obtain ⟨⟨hleft, hleft'⟩, hright, hright'⟩ := hothers
      rw [ha.eq_of_kind hleft hleft', hb.eq_of_kind hright hright']
      exact Agree.refl _
  · -- alike operands have the same kinds, so neither application is defined
    have hkinds' : (a'.kind, b'.kind) ∉ op.operandKinds := by
      rwa [ha.kind_eq, hb.kind_eq] at hkinds
    rw [combine_of_not_mem hkinds, combine_of_not_mem hkinds']
    rfl

/-! ### A tree -/

/-- Two outcomes are alike values, or errors of one kind. -/
def AgreeUpToSpelling : Except Error Value → Except Error Value → Prop
  | .ok value, .ok value' => value.Alike value'
  | .error e, .error e' => e.kind = e'.kind
  | _, _ => False

theorem Agree.upToSpelling {x y : Except Error Value} (h : Agree x y) : AgreeUpToSpelling x y := by
  cases x with
  | error e =>
    cases y with
    | error e' => exact h
    | ok value => exact absurd h id
  | ok value =>
    cases y with
    | error e => exact absurd h id
    | ok value' =>
      cases h
      exact .same value

/-- What goes on in agreement from any two alike values goes on in agreement from here. -/
theorem AgreeUpToSpelling.bind {x y : Except Error Value} {f g : Value → Except Error Value}
    (h : AgreeUpToSpelling x y) (hnext : ∀ a b : Value, a.Alike b → Agree (f a) (g b)) :
    Agree (x >>= f) (y >>= g) := by
  cases x with
  | error e =>
    cases y with
    | error e' => exact h
    | ok value => exact absurd h id
  | ok value =>
    cases y with
    | error e => exact absurd h id
    | ok value' => exact hnext value value' h

/-- Outcomes that agree up to spelling are both values or both errors. -/
theorem AgreeUpToSpelling.values_or_errors {x y : Except Error Value} (h : AgreeUpToSpelling x y) :
    (∃ value value', x = .ok value ∧ y = .ok value' ∧ value.Alike value') ∨
      ∃ e e', x = .error e ∧ y = .error e' ∧ e.kind = e'.kind := by
  cases x with
  | error e =>
    cases y with
    | error e' => exact Or.inr ⟨e, e', rfl, rfl, h⟩
    | ok value => exact absurd h id
  | ok value =>
    cases y with
    | error e => exact absurd h id
    | ok value' => exact Or.inl ⟨value, value', rfl, rfl, h⟩

namespace Expr

/-- **Trees with alike leaves**: the shape and the operators are the same. -/
inductive Alike : Expr → Expr → Prop where
  | literal {value value' : Value} (h : value.Alike value') : Alike (literal value) (literal value')
  | binary (op : Operator) {left left' right right' : Expr} (hleft : Alike left left')
      (hright : Alike right right') : Alike (binary op left right) (binary op left' right')

namespace Alike

variable {op : Operator} {expr expr' left left' right right' : Expr}

/-- Below an operator only the meaning of the operands is left. -/
theorem agree_of_parts (hleft : AgreeUpToSpelling left.eval.outcome left'.eval.outcome)
    (hright : AgreeUpToSpelling right.eval.outcome right'.eval.outcome) :
    Agree (Expr.binary op left right).eval.outcome (Expr.binary op left' right').eval.outcome := by
  rw [outcome_eval_binary, outcome_eval_binary]
  -- whichever alike values the parts have, the operator does not tell them apart
  refine hleft.bind fun a a' ha => ?_
  exact hright.bind fun b b' hb => agree_combine op ha hb

/-- **Trees with alike leaves** have alike values, or fail in the same way. -/
theorem agreeUpToSpelling (h : expr.Alike expr') :
    AgreeUpToSpelling expr.eval.outcome expr'.eval.outcome := by
  induction h with
  | literal h => exact h
  | binary op _ _ ihl ihr => exact (agree_of_parts ihl ihr).upToSpelling

/-- With an operator at the root the two values are the same, spelling and all. -/
theorem agree_of_binary (op : Operator) (hleft : left.Alike left') (hright : right.Alike right') :
    Agree (Expr.binary op left right).eval.outcome (Expr.binary op left' right').eval.outcome :=
  agree_of_parts hleft.agreeUpToSpelling hright.agreeUpToSpelling

end Alike

end Expr

/-- **The spelling of operands has no part in the meaning.** Two trees with alike leaves both have
values, and these are alike, or both fail, with errors of one kind. If the root is an operator the
two values have the same text. -/
theorem eval_of_alike {expr expr' : Expr} (h : expr.Alike expr') :
    ((∃ value value', expr.HasValue value ∧ expr'.HasValue value' ∧ value.Alike value') ∨
      ∃ e e', expr.eval.outcome = .error e ∧ expr'.eval.outcome = .error e' ∧ e.kind = e'.kind) ∧
    ∀ op left right value value', expr = .binary op left right → expr.HasValue value →
      expr'.HasValue value' → value.text = value'.text := by
  constructor
  · exact h.agreeUpToSpelling.values_or_errors
  · rintro op left right value value' rfl hvalue hvalue'
    cases h with
    | binary _ hleft hright =>
      have hagree := Expr.Alike.agree_of_binary op hleft hright
      rw [hvalue, hvalue'] at hagree
      exact congrArg Value.text hagree

/-- A third is rounded at the last place that a decimal has, however its parts are written. -/
theorem eval_of_alike_third :
    ∃ third third', third.text = "0.3333333333333333333333333333" ∧ third.text = third'.text ∧
      (Expr.binary .divide (.literal (.number ⟨10, 1, by decide⟩))
        (.literal (.number ⟨3, 0, by decide⟩))).HasValue third ∧
      (Expr.binary .divide (.literal (.number ⟨1, 0, by decide⟩))
        (.literal (.number ⟨300, 2, by decide⟩))).HasValue third' := by
  have hone : (⟨10, 1, by decide⟩ : Decimal).toRat = (⟨1, 0, by decide⟩ : Decimal).toRat := by
    decide +kernel
  have hthree : (⟨3, 0, by decide⟩ : Decimal).toRat = (⟨300, 2, by decide⟩ : Decimal).toRat := by
    decide +kernel
  obtain ⟨hmeaning, htext⟩ :=
    eval_of_alike (.binary .divide (.literal (.number hone)) (.literal (.number hthree)))
  -- one of the two is evaluated, and the other has the same text by the theorem
  have hthird : (Expr.binary .divide (.literal (.number ⟨10, 1, by decide⟩))
      (.literal (.number ⟨3, 0, by decide⟩))).HasValue
      (.number ⟨3333333333333333333333333333, 28, by decide⟩) := by
    unfold Expr.HasValue
    decide +kernel
  rcases hmeaning with ⟨third, third', h, h', -⟩ | ⟨e, -, he, -⟩
  · rw [Expr.HasValue, hthird] at h
    cases h
    exact ⟨_, third', by decide +kernel, htext _ _ _ _ _ rfl hthird h', hthird, h'⟩
  · rw [hthird] at he
    cases he

end RuleLang
