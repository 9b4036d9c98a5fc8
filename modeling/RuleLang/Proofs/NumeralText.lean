import RuleLang.Decimal.Numeral
import RuleLang.Proofs.DigitRuns
import RuleLang.Proofs.LexemeForms

/-!
# The text of a number

A numeral is a sign or none, whole digits, and behind a point fraction digits, if it has any
(`Numeral.chars`). What is read as a numeral is written so, and the other way round
(`Numeral.read?_eq_some_iff`), and such a text is one piece from end to end
(`Numeral.number_chars`).

A number is written as a numeral with as many fraction digits as it has places, zeros at the end
too (`Decimal.exists_numeral`). So nothing of it is lost: it is read back with the same coefficient
and the same scale (`Decimal.exists_numeral_of_digits`). A minus sign in the text is that of the
coefficient (`Decimal.minus_mem_digits`), so zero has none.
-/

namespace RuleLang

open Digit (char)

namespace Numeral

variable {cs : List Char} {n : Numeral}

/-- The point and the fraction digits of a numeral, nothing if it has none. -/
def fractionChars (n : Numeral) : List Char :=
  if n.fraction = [] then [] else '.' :: n.fraction.map char

/-- A numeral as it is written. -/
def chars (n : Numeral) : List Char :=
  (if n.negative then ['-'] else []) ++ (n.whole.map char ++ n.fractionChars)

theorem takeWhile_whole (n : Numeral) :
    (n.whole.map char ++ n.fractionChars).takeWhile (· ≠ '.') = n.whole.map char ∧
      (n.whole.map char ++ n.fractionChars).dropWhile (· ≠ '.') = n.fractionChars := by
  have hwhole : ∀ c ∈ n.whole.map char, decide (c ≠ '.') = true := by
    intro c hc
    exact decide_eq_true fun hpoint => Digit.not_mem_map_char rfl n.whole (hpoint ▸ hc)
  rw [List.takeWhile_append_of_pos hwhole, List.dropWhile_append_of_pos hwhole, fractionChars]
  split
  · simp
  · simp

/-- What is read behind the sign is whole digits and, if there is a point, fraction digits. -/
theorem readUnsigned?_eq_some_iff {negative : Bool} :
    readUnsigned? negative cs = some n ↔
      n.negative = negative ∧ n.whole ≠ [] ∧ cs = n.whole.map char ++ n.fractionChars := by
  constructor
  · intro h
    unfold readUnsigned? at h
    obtain ⟨whole, hwhole, h⟩ := Option.bind_eq_some_iff.mp h
    obtain ⟨hne, htake⟩ := Digit.read?_eq_some_iff.mp hwhole
    have hcs := List.takeWhile_append_dropWhile (p := fun c => decide (c ≠ '.')) (l := cs)
    split at h
    · -- there is no point
      rename_i hdrop
      cases h
      rw [htake, hdrop] at hcs
      exact ⟨rfl, hne, hcs.symm⟩
    · -- the run of other characters ends, so there is a point behind it
      rename_i c behind hdrop
      obtain ⟨fraction, hfraction, h⟩ := Option.bind_eq_some_iff.mp h
      cases h
      obtain ⟨hne', rfl⟩ := Digit.read?_eq_some_iff.mp hfraction
      have hpoint : c = '.' := by
        have hhead := List.head?_dropWhile_not (fun c => decide (c ≠ '.')) cs
        rw [hdrop] at hhead
        simpa using hhead
      rw [htake, hdrop, hpoint] at hcs
      refine ⟨rfl, hne, ?_⟩
      rw [fractionChars, if_neg hne']
      exact hcs.symm
  · rintro ⟨rfl, hne, rfl⟩
    obtain ⟨htake, hdrop⟩ := n.takeWhile_whole
    have hwhole : Digit.read? (n.whole.map char) = some n.whole :=
      Digit.read?_eq_some_iff.mpr ⟨hne, rfl⟩
    unfold readUnsigned?
    rw [htake, hdrop, hwhole]
    -- a point is written only where digits stand behind it, so the two cases are read along
    -- different branches
    obtain ⟨negative, whole, fraction⟩ := n
    by_cases hfraction : fraction = []
    · rw [fractionChars, if_pos hfraction]
      subst hfraction
      rfl
    · have hread : Digit.read? (fraction.map char) = some fraction :=
        Digit.read?_eq_some_iff.mpr ⟨hfraction, rfl⟩
      rw [fractionChars, if_neg hfraction]
      change ((Digit.read? (fraction.map char)).bind fun ds =>
        some (⟨negative, whole, ds⟩ : Numeral)) = _
      rw [hread]
      rfl

theorem read?_of_ne {c : Char} (h : c ≠ '-') (cs : List Char) :
    read? (c :: cs) = readUnsigned? false (c :: cs) := by
  unfold read?
  split
  · rename_i hminus
    exact absurd (List.cons.inj hminus).1 h
  · rfl

/-- **Reading a numeral** gives the one that is written so. -/
theorem read?_eq_some_iff : read? cs = some n ↔ n.whole ≠ [] ∧ cs = n.chars := by
  constructor
  · intro h
    cases cs with
    | nil => cases h
    | cons c cs =>
      by_cases hminus : c = '-'
      · subst hminus
        obtain ⟨hnegative, hwhole, rfl⟩ := readUnsigned?_eq_some_iff.mp h
        exact ⟨hwhole, by rw [chars, hnegative]; rfl⟩
      · rw [read?_of_ne hminus] at h
        obtain ⟨hnegative, hwhole, hcs⟩ := readUnsigned?_eq_some_iff.mp h
        exact ⟨hwhole, by rw [chars, hnegative]; exact hcs⟩
  · rintro ⟨hwhole, rfl⟩
    obtain ⟨d, ds, hds⟩ := List.exists_cons_of_ne_nil hwhole
    cases hnegative : n.negative with
    | true =>
      rw [chars, hnegative]
      exact readUnsigned?_eq_some_iff.mpr ⟨hnegative, hwhole, rfl⟩
    | false =>
      -- the first digit is not taken for a sign
      have hchars : n.chars = d.char :: (ds.map char ++ n.fractionChars) := by
        rw [chars, hnegative, hds]
        rfl
      rw [hchars, read?_of_ne (d.char_ne rfl), ← hchars]
      exact readUnsigned?_eq_some_iff.mpr ⟨hnegative, hwhole, by rw [chars, hnegative]; rfl⟩

/-- A numeral is a piece from end to end. -/
theorem number_chars (h : n.whole ≠ []) : Lexeme.number n.chars = n.chars := by
  have hdigit (ds : List Digit) : ∀ c ∈ ds.map char, Digit.isDigit c = true :=
    fun c => Digit.isDigit_of_mem_map_char
  have hwhole := hdigit n.whole
  have hpoint : Digit.isDigit '.' = false := by decide
  -- the whole digits end at the point, and the fraction digits at the end of the text
  have hrest : n.fractionChars.takeWhile Digit.isDigit = [] ∧
      n.fractionChars.dropWhile Digit.isDigit = n.fractionChars ∧
      Lexeme.fraction n.fractionChars = n.fractionChars := by
    unfold fractionChars
    split
    · exact ⟨rfl, rfl, rfl⟩
    · refine ⟨List.takeWhile_cons_of_neg (by simp [hpoint]),
        List.dropWhile_cons_of_neg (by simp [hpoint]), ?_⟩
      rw [Lexeme.fraction, List.takeWhile_eq_self_iff.mpr (hdigit n.fraction)]
  have htake : (n.whole.map char ++ n.fractionChars).takeWhile Digit.isDigit
      = n.whole.map char := by
    rw [List.takeWhile_append_of_pos hwhole, hrest.1, List.append_nil]
  have hne : (n.whole.map char ++ n.fractionChars).takeWhile Digit.isDigit ≠ [] := by
    rw [htake]
    simpa using h
  have hunsigned : Lexeme.unsigned (n.whole.map char ++ n.fractionChars)
      = n.whole.map char ++ n.fractionChars := by
    rw [Lexeme.unsigned_eq hne, htake, List.dropWhile_append_of_pos hwhole, hrest.2.1, hrest.2.2]
  unfold chars
  cases n.negative with
  | true =>
    change Lexeme.number ('-' :: (n.whole.map char ++ n.fractionChars)) = _
    rw [Lexeme.number, hunsigned, if_neg (by simp [h])]
    rfl
  | false =>
    -- without a sign the piece starts at a digit, and a digit is no minus
    obtain ⟨d, ds, hds⟩ := List.exists_cons_of_ne_nil h
    rw [hds] at hunsigned ⊢
    exact (Lexeme.number_of_ne (d.char_ne rfl) _).trans hunsigned

/-- Behind whole digits a point is found with digits behind it, or alone, or nothing. -/
theorem fraction_eq_nil_or_exists (cs : List Char) :
    Lexeme.fraction cs = [] ∨ ∃ ds : List Digit, Lexeme.fraction cs = '.' :: ds.map char := by
  cases cs with
  | nil => exact Or.inl rfl
  | cons c cs =>
    by_cases hpoint : c = '.'
    · subst hpoint
      obtain ⟨ds, hds⟩ := Digit.exists_map_char fun c (hc : c ∈ cs.takeWhile Digit.isDigit) =>
        List.mem_takeWhile_imp hc
      exact Or.inr ⟨ds, by rw [Lexeme.fraction, hds]⟩
    · exact Or.inl (Lexeme.fraction_of_ne hpoint cs)

/-- The digits at the start of a text and what belongs to them are a numeral without its sign, or
whole digits that end in their point. -/
theorem exists_of_unsigned_ne_nil (negative : Bool) (h : Lexeme.unsigned cs ≠ []) :
    ∃ n : Numeral, n.negative = negative ∧ n.whole ≠ [] ∧
      (Lexeme.unsigned cs = n.whole.map char ++ n.fractionChars ∨
        n.fraction = [] ∧ Lexeme.unsigned cs = n.whole.map char ++ ['.']) := by
  have hdigits : cs.takeWhile Digit.isDigit ≠ [] := fun hnil =>
    h (Lexeme.unsigned_of_takeWhile_eq_nil hnil)
  obtain ⟨whole, hwhole⟩ := Digit.exists_map_char fun c (hc : c ∈ cs.takeWhile Digit.isDigit) =>
    List.mem_takeWhile_imp hc
  have hne : whole ≠ [] := by
    rintro rfl
    exact hdigits hwhole
  rw [Lexeme.unsigned_eq hdigits, hwhole]
  rcases fraction_eq_nil_or_exists (cs.dropWhile Digit.isDigit) with hnil | ⟨fraction, hfraction⟩
  · rw [hnil]
    exact ⟨⟨negative, whole, []⟩, rfl, hne, Or.inl rfl⟩
  · rw [hfraction]
    -- a point with nothing behind it belongs to the piece, but to no numeral
    by_cases hnil : fraction = []
    · subst hnil
      exact ⟨⟨negative, whole, []⟩, rfl, hne, Or.inr ⟨rfl, rfl⟩⟩
    · refine ⟨⟨negative, whole, fraction⟩, rfl, hne, Or.inl ?_⟩
      rw [fractionChars, if_neg hnil]

/-- **What is found as a number** is a numeral, or whole digits that end in their point. -/
theorem exists_of_number_ne_nil (h : Lexeme.number cs ≠ []) :
    ∃ n : Numeral, n.whole ≠ [] ∧ (Lexeme.number cs = n.chars ∨
      n.fraction = [] ∧ Lexeme.number cs = n.chars ++ ['.']) := by
  cases cs with
  | nil => exact absurd rfl h
  | cons c cs =>
    by_cases hminus : c = '-'
    · subst hminus
      rw [Lexeme.number] at h ⊢
      -- a minus sign alone is no number
      by_cases hunsigned : Lexeme.unsigned cs = []
      · exact absurd (if_pos hunsigned) h
      · obtain ⟨n, hnegative, hwhole, hn⟩ := exists_of_unsigned_ne_nil true hunsigned
        refine ⟨n, hwhole, ?_⟩
        rw [if_neg hunsigned, chars, hnegative]
        rcases hn with hn | ⟨hfraction, hn⟩
        · exact Or.inl (congrArg _ hn)
        · exact Or.inr ⟨hfraction, by rw [hn, fractionChars, if_pos hfraction]; simp⟩
    · rw [Lexeme.number_of_ne hminus] at h ⊢
      obtain ⟨n, hnegative, hwhole, hn⟩ := exists_of_unsigned_ne_nil false h
      refine ⟨n, hwhole, ?_⟩
      rw [chars, hnegative]
      rcases hn with hn | ⟨hfraction, hn⟩
      · exact Or.inl hn
      · exact Or.inr ⟨hfraction, by rw [hn, fractionChars, if_pos hfraction]; simp⟩

/-- A numeral ends in a digit. -/
theorem exists_last_digit (h : n.whole ≠ []) : ∃ front d, n.chars = front ++ [char d] := by
  obtain ⟨ds, d, hds⟩ := (List.eq_nil_or_concat n.whole).resolve_left h
  rcases List.eq_nil_or_concat n.fraction with hfraction | ⟨es, e, hes⟩
  · refine ⟨(if n.negative then ['-'] else []) ++ ds.map char, d, ?_⟩
    rw [chars, fractionChars, if_pos hfraction, hds]
    simp
  · refine ⟨(if n.negative then ['-'] else []) ++ (n.whole.map char ++ '.' :: es.map char), e, ?_⟩
    have hfraction : n.fractionChars = '.' :: n.fraction.map char := if_neg (by simp [hes])
    rw [chars, hfraction, hes]
    simp

/-- A numeral has no characters but digits, a minus sign and a point. -/
theorem isDigit_or_mem_of_mem_chars {c : Char} (h : c ∈ n.chars) :
    Digit.isDigit c = true ∨ c ∈ ['-', '.'] := by
  have hdigits {ds : List Digit} (hc : c ∈ ds.map char) : Digit.isDigit c = true :=
    Digit.isDigit_of_mem_map_char hc
  rw [chars, List.mem_append, List.mem_append] at h
  rcases h with hsign | hwhole | hfraction
  · split at hsign
    · exact Or.inr (List.mem_cons.mpr (Or.inl (List.mem_singleton.mp hsign)))
    · cases hsign
  · exact Or.inl (hdigits hwhole)
  · unfold fractionChars at hfraction
    split at hfraction
    · cases hfraction
    · rcases List.mem_cons.mp hfraction with rfl | hfraction
      · exact Or.inr (by decide)
      · exact Or.inl (hdigits hfraction)

/-- The minus sign is in front or nowhere. -/
theorem minus_mem_chars : '-' ∈ n.chars ↔ n.negative = true := by
  have hdigits : ∀ ds : List Digit, '-' ∉ ds.map char := Digit.not_mem_map_char rfl
  have hfraction : '-' ∉ n.fractionChars := by
    unfold fractionChars
    split
    · exact List.not_mem_nil
    · exact List.not_mem_cons_of_ne_of_not_mem (by decide) (hdigits _)
  rw [chars, List.mem_append, List.mem_append]
  cases n.negative with
  | true => simp
  | false => simp [hdigits, hfraction]

end Numeral

namespace Decimal

/-- A number is written as a numeral. -/
theorem exists_numeral (d : Decimal) : ∃ n : Numeral, n.whole ≠ [] ∧ d.digits = n.chars ∧
    n.negative = decide (d.coefficient < 0) ∧ n.fraction.length = d.scale ∧
    Digit.value (n.whole ++ n.fraction) = d.coefficient.natAbs := by
  obtain ⟨whole, hne, hwhole, hvalue⟩ :=
    Digit.exists_toDigits (d.coefficient.natAbs / 10 ^ d.scale)
  obtain ⟨fraction, hlength, hfraction, hvalue'⟩ :=
    Digit.exists_last d.scale d.coefficient.natAbs
  refine ⟨⟨decide (d.coefficient < 0), whole, fraction⟩, hne, ?_, rfl, hlength, ?_⟩
  · -- a point is written just where there are fraction digits
    have hnil : fraction = [] ↔ d.scale = 0 := by rw [← hlength, List.length_eq_zero_iff]
    change (if d.coefficient < 0 then ['-'] else [])
      ++ Nat.toDigits 10 (d.coefficient.natAbs / 10 ^ d.scale)
      ++ (if d.scale = 0 then [] else '.' :: Digit.last d.scale d.coefficient.natAbs) = _
    rw [hwhole, hfraction, Numeral.chars, Numeral.fractionChars, List.append_assoc]
    simp only [hnil, decide_eq_true_eq]
  · rw [Digit.value_append, hvalue, hvalue', hlength]
    exact Nat.div_add_mod' _ _

/-! ### From the text to the number -/

/-- Digits are appended as long as all of them together fit. -/
theorem appendFraction?_of_fits {ds : List Digit} {coefficient scale : Nat}
    (h : Fits (ds.foldl (fun n d => 10 * n + d.val) coefficient : Nat) (scale + ds.length)) :
    Numeral.appendFraction? coefficient scale ds
      = some (ds.foldl (fun n d => 10 * n + d.val) coefficient, scale + ds.length) := by
  induction ds generalizing coefficient scale with
  | nil => rfl
  | cons d ds ih =>
    rw [List.foldl_cons, List.length_cons, ← Nat.add_assoc, Nat.add_right_comm] at h ⊢
    -- the digits behind this one make the number no less
    have hfits : Fits (10 * coefficient + d.val : Nat) (scale + 1) := by
      have hle := Digit.le_foldl (10 * coefficient + d.val) ds
      obtain ⟨hcoefficient, hscale⟩ := h
      rw [Int.natAbs_natCast] at hcoefficient
      refine ⟨?_, Nat.le_trans (Nat.le_add_right _ _) hscale⟩
      rw [Int.natAbs_natCast]
      exact Nat.le_trans hle hcoefficient
    rw [Numeral.appendFraction?, if_pos hfits]
    exact ih h

/-- **Reading a number back** from the digits of its coefficient. -/
theorem ofNumeral?_eq_some {n : Numeral} {d : Decimal}
    (hnegative : n.negative = decide (d.coefficient < 0)) (hlength : n.fraction.length = d.scale)
    (hvalue : Digit.value (n.whole ++ n.fraction) = d.coefficient.natAbs) :
    ofNumeral? n = some d := by
  have hfold : n.fraction.foldl (fun n d => 10 * n + d.val) (Digit.value n.whole)
      = d.coefficient.natAbs := by
    rw [← hvalue, Digit.value, Digit.value, List.foldl_append]
  -- the whole digits are read without a check on their scale, but must fit on their own
  have hwhole : Digit.value n.whole ≤ maxCoefficient := by
    have hle := Digit.le_foldl (Digit.value n.whole) n.fraction
    rw [hfold] at hle
    exact Nat.le_trans hle d.fits.1
  have hmagnitude : n.magnitude? = some (d.coefficient.natAbs, d.scale) := by
    have hfits : Fits (n.fraction.foldl (fun n d => 10 * n + d.val) (Digit.value n.whole) : Nat)
        (0 + n.fraction.length) := by
      rw [hfold, hlength, Nat.zero_add]
      exact ⟨d.fits.1, d.fits.2⟩
    rw [Numeral.magnitude?, if_pos hwhole, appendFraction?_of_fits hfits, hfold, hlength,
      Nat.zero_add]
  -- the sign is put back in front of the digits
  have hsigned : (if n.negative then -(d.coefficient.natAbs : Int) else d.coefficient.natAbs)
      = d.coefficient := by
    rw [hnegative]
    by_cases hneg : d.coefficient < 0
    · simp only [hneg, decide_true, if_true]
      omega
    · simp only [hneg, decide_false]
      exact Int.natAbs_of_nonneg (Int.not_lt.mp hneg)
  rw [ofNumeral?, hmagnitude]
  change (if fits : Fits (if n.negative then -(d.coefficient.natAbs : Int)
    else d.coefficient.natAbs) d.scale then some (⟨_, d.scale, fits⟩ : Decimal) else none) = some d
  simp only [hsigned, dif_pos d.fits]

/-- **The text of a number** is a numeral, and it is read back as that number, scale and all. -/
theorem exists_numeral_of_digits (d : Decimal) :
    ∃ n : Numeral, Numeral.read? d.digits = some n ∧ ofNumeral? n = some d := by
  obtain ⟨n, hwhole, hdigits, hnegative, hlength, hvalue⟩ := d.exists_numeral
  exact ⟨n, Numeral.read?_eq_some_iff.mpr ⟨hwhole, hdigits⟩,
    ofNumeral?_eq_some hnegative hlength hvalue⟩

/-! ### The sign -/

/-- A number is written with a minus sign just where its coefficient is negative. -/
theorem minus_mem_digits (d : Decimal) : '-' ∈ d.digits ↔ d.coefficient < 0 := by
  obtain ⟨n, -, hdigits, hnegative, -⟩ := d.exists_numeral
  rw [hdigits, Numeral.minus_mem_chars, hnegative, decide_eq_true_iff]

/-- Only a numeral with a minus sign denotes a negative number. -/
theorem negative_of_ofNumeral? {n : Numeral} {d : Decimal} (h : ofNumeral? n = some d)
    (hd : d.coefficient < 0) : n.negative = true := by
  obtain ⟨negative, whole, fraction⟩ := n
  cases negative with
  | true => rfl
  | false =>
    obtain ⟨⟨coefficient, scale⟩, -, h⟩ := Option.bind_eq_some_iff.mp h
    change (if fits : Fits (coefficient : Int) scale then some (⟨_, _, fits⟩ : Decimal) else none)
      = some d at h
    split at h
    · cases h
      -- without a sign the coefficient is that of the digits, and no natural number is negative
      exact absurd hd (Int.not_lt.mpr (Int.natCast_nonneg coefficient))
    · cases h

theorem number_digits (d : Decimal) : Lexeme.number d.digits = d.digits := by
  obtain ⟨n, hwhole, hdigits, -⟩ := d.exists_numeral
  rw [hdigits, Numeral.number_chars hwhole]

theorem digits_ne_nil (d : Decimal) : d.digits ≠ [] := by
  obtain ⟨n, hwhole, hdigits, -⟩ := d.exists_numeral
  rw [hdigits, Numeral.chars]
  simp [hwhole]

end Decimal
end RuleLang
