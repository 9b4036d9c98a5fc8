import Mathlib.Data.String.Basic
import RuleLang.Proofs.Classification
import RuleLang.Proofs.Simulation

/-!
# Moments in order

A moment has several texts, and one of them is its normal text: with dashes between the fields of
the date, and with the time, though it may be midnight (`Moment.normalize`). The fields of a normal
text have their places, and the more significant ones stand in front, so normal texts compare
character by character as moments do field by field (`Moment.normalText_lt_iff`). The comparison
operators can thus be read as operators on texts (`datetime_comparison_eq_text_comparison`). This
holds of the leap second too, whose text is greater than that of second 59 and less than that of the
next minute.
-/

namespace RuleLang

/-- Numbers that have room are in the order of their digits. -/
theorem Digit.last_append_lt_iff {places n n' : Nat} (hn : n < 10 ^ places)
    (hn' : n' < 10 ^ places) (cs cs' : List Char) :
    last places n ++ cs < last places n' ++ cs' ↔ n < n' ∨ n = n' ∧ cs < cs' := by
  induction places generalizing n n' cs cs' with
  | zero =>
    obtain rfl : n = 0 := by omega
    obtain rfl : n' = 0 := by omega
    simp [last]
  | succ places ih =>
    have hlt : ∀ d d' : Digit, d.val.digitChar < d'.val.digitChar ↔ d.val < d'.val := by decide
    have heq : ∀ d d' : Digit, d.val.digitChar = d'.val.digitChar ↔ d.val = d'.val := by decide
    have hd : n % 10 < 10 := Nat.mod_lt _ (by decide)
    have hd' : n' % 10 < 10 := Nat.mod_lt _ (by decide)
    -- the digits in front decide, and if they are the same the last one does
    rw [last, last, List.append_assoc, List.append_assoc, List.singleton_append,
      List.singleton_append, ih (by omega) (by omega), List.cons_lt_cons_iff,
      hlt ⟨n % 10, hd⟩ ⟨n' % 10, hd'⟩, heq ⟨n % 10, hd⟩ ⟨n' % 10, hd'⟩]
    by_cases htail : cs < cs'
    · simp only [htail, and_true]
      omega
    · simp only [htail, and_false, or_false]
      omega

namespace Moment

/-- The characters of the normal text. -/
def normalChars (m : Moment) : List Char :=
  m.dateChars '-' '-' ++ ' ' :: m.clockChars

/-- A moment as `YYYY-MM-DD HH:MM:SS`. -/
def normalText (m : Moment) : String :=
  String.ofList m.normalChars

/-- A mark between the fields of a date as it is in normal texts. -/
def dash (c : Char) : Char := if c = '/' then '-' else c

/-- The normal text for a text: slashes become dashes, and a date that has no time, which is one of
ten characters, gets midnight. -/
def normalize (text : String) : String :=
  text.map dash ++ if text.length = 10 then " 00:00:00" else ""

/-- A moment is determined by its fields. -/
theorem fields_injective {m m' : Moment} (h : m.fields = m'.fields) : m = m' := by
  cases m
  cases m'
  simpa [fields] using h

/-- **Normal texts are in the order of time.** -/
theorem normalText_lt_iff {m m' : Moment} :
    m.normalText < m'.normalText ↔ m.fields < m'.fields := by
  obtain ⟨⟨hyear, hmonth, hday⟩, hhour, hminute, hsecond⟩ := m.fields_lt
  obtain ⟨⟨hyear', hmonth', hday'⟩, hhour', hminute', hsecond'⟩ := m'.fields_lt
  have hlast : Digit.last 2 m.second < Digit.last 2 m'.second ↔ m.second < m'.second := by
    simpa using Digit.last_append_lt_iff hsecond hsecond' [] []
  -- the marks are the same on both sides, and the first field that differs decides
  rw [String.lt_iff_toList_lt]
  simp only [normalText, normalChars, dateChars, clockChars, fields, String.toList_ofList,
    List.append_assoc, List.cons_append, List.cons_lt_cons_iff, lt_irrefl, true_and, false_or,
    Digit.last_append_lt_iff hyear hyear', Digit.last_append_lt_iff hmonth hmonth',
    Digit.last_append_lt_iff hday hday', Digit.last_append_lt_iff hhour hhour',
    Digit.last_append_lt_iff hminute hminute', hlast, and_false, or_false]

/-- Moments are ordered as their normal texts. -/
theorem order_eq_compare (m m' : Moment) :
    m.order m' = compare m.normalText m'.normalText := by
  unfold order compareOfLessAndEq
  -- both orders are linear, so the three cases of the one settle the three of the other
  rcases lt_trichotomy m.fields m'.fields with hlt | heq | hgt
  · rw [if_pos hlt, compare_lt_iff_lt.mpr (normalText_lt_iff.mpr hlt)]
  · rw [if_neg (heq ▸ lt_irrefl _), if_pos heq, fields_injective heq, compare_eq_iff_eq.mpr rfl]
  · rw [if_neg (lt_asymm hgt), if_neg (ne_of_gt hgt),
      compare_gt_iff_gt.mpr (normalText_lt_iff.mpr hgt)]

/-- Only one moment has a given normal text. -/
theorem normalText_inj {m m' : Moment} : m.normalText = m'.normalText ↔ m = m' := by
  refine ⟨fun h => ?_, congrArg normalText⟩
  rcases lt_trichotomy m.fields m'.fields with hlt | heq | hgt
  · exact absurd h (ne_of_lt (normalText_lt_iff.mpr hlt))
  · exact fields_injective heq
  · exact absurd h (ne_of_gt (normalText_lt_iff.mpr hgt))

/-- A moment is earlier than another just where its normal text is less. -/
theorem isLT_order (m m' : Moment) :
    (m.order m').isLT = decide (m.normalText < m'.normalText) := by
  rw [Bool.eq_iff_iff, decide_eq_true_iff, order_eq_compare, Ordering.isLT_iff_eq_lt,
    compare_lt_iff_lt]

theorem isLE_order (m m' : Moment) :
    (m.order m').isLE = decide (m.normalText ≤ m'.normalText) := by
  rw [Bool.eq_iff_iff, decide_eq_true_iff, order_eq_compare, Ordering.isLE_iff_ne_gt]
  exact compare_le_iff_le

theorem isGT_order (m m' : Moment) :
    (m.order m').isGT = decide (m.normalText > m'.normalText) := by
  rw [Bool.eq_iff_iff, decide_eq_true_iff, order_eq_compare, Ordering.isGT_iff_eq_gt,
    compare_gt_iff_gt]

theorem isGE_order (m m' : Moment) :
    (m.order m').isGE = decide (m.normalText ≥ m'.normalText) := by
  rw [Bool.eq_iff_iff, decide_eq_true_iff, order_eq_compare, Ordering.isGE_iff_ne_lt]
  exact compare_ge_iff_ge

/-- Digits have no slashes to replace. -/
theorem map_dash_last (places n : Nat) :
    (Digit.last places n).map dash = Digit.last places n := by
  have hdash : ∀ c ∈ Digit.last places n, dash c = c := by
    refine fun c hc => if_neg ?_
    rintro rfl
    cases Digit.isDigit_of_mem_last hc
  exact (List.map_congr_left hdash).trans (List.map_id' _)

/-- Either mark of a date becomes a dash. -/
theorem dash_of_isDateMark {mark : Char} (h : isDateMark mark = true) : dash mark = '-' := by
  simp only [isDateMark, Bool.or_eq_true, decide_eq_true_eq] at h
  rcases h with rfl | rfl <;> rfl

/-- A date with either marks becomes the date with dashes. -/
theorem map_dash_dateChars {mark mark' : Char} (hmark : isDateMark mark = true)
    (hmark' : isDateMark mark' = true) (m : Moment) :
    (m.dateChars mark mark').map dash = m.dateChars '-' '-' := by
  simp only [dateChars, List.map_append, List.map_cons, map_dash_last, dash_of_isDateMark hmark,
    dash_of_isDateMark hmark']

theorem map_dash_clockChars (m : Moment) : m.clockChars.map dash = m.clockChars := by
  have hcolon : dash ':' = ':' := rfl
  simp only [clockChars, List.map_append, List.map_cons, map_dash_last, hcolon]

/-- **All texts of a moment have one normal text.** -/
theorem WrittenAs.normalize_eq {m : Moment} {cs : List Char} (h : m.WrittenAs cs) :
    normalize (String.ofList cs) = m.normalText := by
  rw [← String.toList_inj, normalize, normalText, String.toList_append, String.toList_map,
    String.toList_ofList, String.toList_ofList, String.length_ofList, normalChars]
  cases h with
  | date hmark hmark' hmidnight =>
    obtain ⟨hhour, hminute, hsecond⟩ := hmidnight
    -- what is put behind the date is the clock of midnight
    rw [length_dateChars, map_dash_dateChars hmark hmark', clockChars, hhour, hminute, hsecond]
    rfl
  | @dateTime mark mark' hmark hmark' =>
    -- with its time a text is longer than a date, so nothing is put behind it
    have hlong : (m.dateChars mark mark' ++ ' ' :: m.clockChars).length ≠ 10 := by
      simp [length_dateChars]
    rw [if_neg hlong, List.map_append, map_dash_dateChars hmark hmark', List.map_cons,
      map_dash_clockChars]
    exact List.append_nil _

end Moment

/-- A text that is classified as a moment is one of the moment's. -/
theorem Value.exists_of_kind_datetime {s : String} (h : (classify s).kind = .datetime) :
    ∃ text m, classify s = .datetime text m ∧ Moment.normalize text = m.normalText := by
  have hclassified := classifiedAs_classify s
  generalize classify s = value at h hclassified
  cases hclassified with
  | datetime hquoted hmoment =>
    exact ⟨_, _, rfl, (Moment.read?_eq_some_iff.mp hmoment).normalize_eq⟩
  | _ => cases h

/-- An operator decides a question on two values. -/
def Operator.Decides (op : Operator) (a b : Value) (p : Prop) [Decidable p] : Prop :=
  (apply op a b).outcome = .ok (.boolean (decide p))

/-- **Moments compare as their normal texts do**, whatever the marks between their fields are and
whether midnight is written out or not. -/
theorem datetime_comparison_eq_text_comparison {s t : String}
    (hs : (Value.classify s).kind = .datetime) (ht : (Value.classify t).kind = .datetime) :
    let a := Value.classify s
    let b := Value.classify t
    let x := Moment.normalize a.text
    let y := Moment.normalize b.text
    Operator.equal.Decides a b (x = y) ∧ Operator.notEqual.Decides a b (x ≠ y) ∧
      Operator.lessThan.Decides a b (x < y) ∧ Operator.lessEqual.Decides a b (x ≤ y) ∧
      Operator.greaterThan.Decides a b (x > y) ∧ Operator.greaterEqual.Decides a b (x ≥ y) := by
  obtain ⟨text, m, hclassify, hnormal⟩ := Value.exists_of_kind_datetime hs
  obtain ⟨text', m', hclassify', hnormal'⟩ := Value.exists_of_kind_datetime ht
  simp only [hclassify, hclassify', Value.text, hnormal, hnormal', Operator.Decides, outcome_apply]
  have hverdict {p q : Bool} (h : p = q) :
      (Except.ok (Value.boolean p) : Except Error Value) = .ok (.boolean q) := by rw [h]
  refine ⟨hverdict ?_, hverdict ?_, hverdict (m.isLT_order m'), hverdict (m.isLE_order m'),
    hverdict (m.isGT_order m'), hverdict (m.isGE_order m')⟩
  · exact decide_eq_decide.mpr Moment.normalText_inj.symm
  · rw [← decide_not]
    exact decide_eq_decide.mpr (not_congr Moment.normalText_inj.symm)

/-- A leap second is before the midnight that follows, which is written in two ways. -/
theorem datetime_comparison_eq_text_comparison_at_leap_second :
    Operator.lessThan.Decides (Value.classify "\"2016/12-31 23:59:60\"")
        (Value.classify "\"2017-01-01\"")
        ("2016-12-31 23:59:60" < "2017-01-01 00:00:00") ∧
      Operator.equal.Decides (Value.classify "\"2017/01/01 00:00:00\"")
        (Value.classify "\"2017-01-01\"") ("2017-01-01 00:00:00" = "2017-01-01 00:00:00") := by
  have hleap : Moment.normalize (Value.classify "\"2016/12-31 23:59:60\"").text
      = "2016-12-31 23:59:60" := by decide +kernel
  have hmidnight : Moment.normalize (Value.classify "\"2017-01-01\"").text
      = "2017-01-01 00:00:00" := by decide +kernel
  have hlong : Moment.normalize (Value.classify "\"2017/01/01 00:00:00\"").text
      = "2017-01-01 00:00:00" := by decide +kernel
  obtain ⟨-, -, hlt, -⟩ := datetime_comparison_eq_text_comparison
    (s := "\"2016/12-31 23:59:60\"") (t := "\"2017-01-01\"") (by decide +kernel)
    (by decide +kernel)
  obtain ⟨heq, -⟩ := datetime_comparison_eq_text_comparison
    (s := "\"2017/01/01 00:00:00\"") (t := "\"2017-01-01\"") (by decide +kernel)
    (by decide +kernel)
  simp only [hleap, hmidnight, hlong] at hlt heq
  exact ⟨hlt, heq⟩

end RuleLang
