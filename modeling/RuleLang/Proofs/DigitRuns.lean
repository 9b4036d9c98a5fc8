import Mathlib.Data.List.Induction
import Mathlib.Tactic.Ring
import RuleLang.Decimal.Basic

/-!
# Runs of digits

A run of digits as characters and as the number that it denotes. Reading takes back what writing
does: a run is read as the digits that it is written with (`read?_eq_some_iff`), a number of the
given length is denoted by one run only, the one that `Digit.last` writes (`number?_eq_some_iff`),
and every number is denoted by the digits that the core library writes it with (`exists_toDigits`).
-/

namespace RuleLang

namespace Digit

variable {cs : List Char} {ds : List Digit}

/-- A digit as it is written. -/
def char (d : Digit) : Char := Nat.digitChar d.val

/-- A character is read as the digit that is written so. -/
theorem ofChar?_eq_some_iff {c : Char} {d : Digit} : ofChar? c = some d ↔ c = d.char := by
  -- there are ten digits, and both directions are decided over them
  have hchar : ∀ d : Digit, Char.ofNat (48 + d.val) = d.char := by decide
  have hread : ∀ d : Digit, ofChar? d.char = some d := by decide
  constructor
  · intro h
    unfold ofChar? at h
    split at h
    · rename_i hdigit
      have hzero : '0'.toNat = 48 := rfl
      have hval : d.val = c.toNat - '0'.toNat := (congrArg Fin.val (Option.some.inj h)).symm
      have hcode : c.toNat = 48 + d.val := by omega
      rw [← hchar, ← hcode, Char.ofNat_toNat]
    · cases h
  · rintro rfl
    exact hread d

theorem isDigit_char (d : Digit) : isDigit d.char = true := by
  rw [isDigit, ofChar?_eq_some_iff.mpr rfl]
  rfl

/-- The characters of a run are digits. -/
theorem isDigit_of_mem_map_char {c : Char} (h : c ∈ ds.map char) : isDigit c = true := by
  obtain ⟨d, -, rfl⟩ := List.mem_map.mp h
  exact d.isDigit_char

theorem char_ne {c : Char} (h : isDigit c = false) (d : Digit) : d.char ≠ c := by
  rintro rfl
  rw [isDigit_char] at h
  cases h

theorem not_mem_map_char {c : Char} (h : isDigit c = false) (ds : List Digit) :
    c ∉ ds.map char := by
  intro hmem
  rw [isDigit_of_mem_map_char hmem] at h
  cases h

/-- Characters that are digits are a run. -/
theorem exists_map_char (h : ∀ c ∈ cs, isDigit c = true) : ∃ ds : List Digit, cs = ds.map char := by
  induction cs with
  | nil => exact ⟨[], rfl⟩
  | cons c cs ih =>
    obtain ⟨hc, hcs⟩ := List.forall_mem_cons.mp h
    obtain ⟨d, hd⟩ := Option.isSome_iff_exists.mp hc
    obtain ⟨ds, rfl⟩ := ih hcs
    exact ⟨d :: ds, by rw [List.map_cons, ofChar?_eq_some_iff.mp hd]⟩

/-- Reading a text digit by digit gives the digits that it is written with. -/
theorem mapM_ofChar?_eq_some_iff : cs.mapM ofChar? = some ds ↔ cs = ds.map char := by
  induction cs generalizing ds with
  | nil =>
    rw [List.mapM_nil]
    constructor
    · intro h
      cases h
      rfl
    · intro h
      rw [List.map_eq_nil_iff.mp h.symm]
      rfl
  | cons c cs ih =>
    rw [List.mapM_cons]
    constructor
    · intro h
      obtain ⟨d, hd, h⟩ := Option.bind_eq_some_iff.mp h
      obtain ⟨es, hes, h⟩ := Option.bind_eq_some_iff.mp h
      cases h
      rw [List.map_cons, ofChar?_eq_some_iff.mp hd, ih.mp hes]
    · intro h
      obtain ⟨d, es, rfl, rfl, hes⟩ := List.map_eq_cons_iff.mp h.symm
      rw [ofChar?_eq_some_iff.mpr rfl, ih.mpr hes.symm]
      rfl

/-- **Reading a run** gives the digits that it is written with. -/
theorem read?_eq_some_iff : read? cs = some ds ↔ ds ≠ [] ∧ cs = ds.map char := by
  rw [← mapM_ofChar?_eq_some_iff]
  cases cs with
  | nil =>
    refine iff_of_false (fun h => ?_) ?_
    · cases h
    · rintro ⟨hne, h⟩
      rw [List.mapM_nil] at h
      exact hne (Option.some.inj h).symm
  | cons c cs =>
    change (c :: cs).mapM ofChar? = some ds ↔ _
    refine ⟨fun h => ⟨?_, h⟩, And.right⟩
    -- a text that has a character is not the text of no digits
    rintro rfl
    cases mapM_ofChar?_eq_some_iff.mp h

/-! ### The number of a run -/

/-- One digit more at the end makes ten times the number and the digit. -/
theorem value_concat (ds : List Digit) (d : Digit) :
    value (ds ++ [d]) = 10 * value ds + d.val := by
  rw [value, List.foldl_append]
  rfl

/-- Digits behind a number make it greater by their place and add their own number. -/
theorem foldl_eq (n : Nat) (ds : List Digit) :
    ds.foldl (fun n d => 10 * n + d.val) n = n * 10 ^ ds.length + value ds := by
  -- from the right, since the last digit counts least
  induction ds using List.reverseRecOn with
  | nil => simp [value]
  | append_singleton ds d ih =>
    rw [List.foldl_append, ih, value_concat, List.length_append, List.length_singleton,
      Nat.pow_succ]
    simp only [List.foldl_cons, List.foldl_nil]
    ring

/-- The number of two runs in a row is that of the first by its place and that of the second. -/
theorem value_append (ds es : List Digit) :
    value (ds ++ es) = value ds * 10 ^ es.length + value es := by
  rw [← foldl_eq, value, List.foldl_append]
  rfl

theorem le_foldl (n : Nat) (ds : List Digit) : n ≤ ds.foldl (fun n d => 10 * n + d.val) n := by
  rw [foldl_eq]
  exact Nat.le_add_right_of_le (Nat.le_mul_of_pos_right n (Nat.pow_pos (by decide)))

/-- A run of digits denotes less than the power of ten for its length. -/
theorem value_lt (ds : List Digit) : value ds < 10 ^ ds.length := by
  induction ds using List.reverseRecOn with
  | nil => simp [value]
  | append_singleton ds d ih =>
    have hd := d.isLt
    rw [value_concat, List.length_append, List.length_singleton, Nat.pow_succ]
    omega

/-- **Writing a number** of a given length gives the run that denotes it. -/
theorem last_value (ds : List Digit) : last ds.length (value ds) = ds.map char := by
  induction ds using List.reverseRecOn with
  | nil => rfl
  | append_singleton ds d ih =>
    have hd := d.isLt
    -- division by ten takes the last digit off, and the remainder is this digit
    have hdiv : (10 * value ds + d.val) / 10 = value ds := by omega
    have hmod : (10 * value ds + d.val) % 10 = d.val := by omega
    rw [value_concat, List.length_append, List.length_singleton, last, hdiv, hmod, ih,
      List.map_append]
    rfl

/-- The last digits of a number denote what is left of it by the power of ten. -/
theorem exists_last (places n : Nat) : ∃ ds : List Digit,
    ds.length = places ∧ last places n = ds.map char ∧ value ds = n % 10 ^ places := by
  induction places generalizing n with
  | zero => exact ⟨[], rfl, rfl, (Nat.mod_one n).symm⟩
  | succ places ih =>
    -- the digits of the quotient stand in front of the remainder, so the induction is for every
    -- number
    obtain ⟨ds, hlength, hlast, hvalue⟩ := ih (n / 10)
    have hd : n % 10 < 10 := Nat.mod_lt _ (by decide)
    refine ⟨ds ++ [⟨n % 10, hd⟩], ?_, ?_, ?_⟩
    · rw [List.length_append, hlength, List.length_singleton]
    · rw [last, hlast, List.map_append]
      rfl
    · rw [value_concat, hvalue, Nat.pow_succ, Nat.mul_comm (10 ^ places), Nat.mod_mul,
        Nat.add_comm]

theorem isDigit_of_mem_last {places n : Nat} {c : Char} (h : c ∈ last places n) :
    isDigit c = true := by
  obtain ⟨ds, -, hlast, -⟩ := exists_last places n
  rw [hlast] at h
  exact isDigit_of_mem_map_char h

/-- A number of given length is denoted by one run, and this is the one that is written. -/
theorem number?_eq_some_iff {n : Nat} (hcs : cs ≠ []) :
    number? cs = some n ↔ n < 10 ^ cs.length ∧ cs = last cs.length n := by
  rw [number?, Option.map_eq_some_iff]
  constructor
  · rintro ⟨ds, hread, rfl⟩
    obtain ⟨-, rfl⟩ := read?_eq_some_iff.mp hread
    rw [List.length_map, last_value]
    exact ⟨value_lt ds, rfl⟩
  · rintro ⟨hlt, hlast⟩
    -- nothing is cut off, since the number is less than the power of ten
    obtain ⟨ds, hlength, hds, hvalue⟩ := exists_last cs.length n
    refine ⟨ds, read?_eq_some_iff.mpr ⟨?_, hlast.trans hds⟩, ?_⟩
    · rintro rfl
      exact hcs (List.length_eq_zero_iff.mp hlength.symm)
    · rw [hvalue, Nat.mod_eq_of_lt hlt]

theorem length_last (places n : Nat) : (last places n).length = places := by
  obtain ⟨ds, hlength, hlast, -⟩ := exists_last places n
  rw [hlast, List.length_map, hlength]

/-- A number that has room is read back from the digits that it is written with. -/
theorem number?_last {places n : Nat} (hplaces : 0 < places) (h : n < 10 ^ places) :
    number? (last places n) = some n := by
  have hne : last places n ≠ [] := by
    rw [← List.length_pos_iff, length_last]
    exact hplaces
  rw [number?_eq_some_iff hne, length_last]
  exact ⟨h, rfl⟩

/-- The digits that the core library writes a number with denote it. -/
theorem exists_toDigits (n : Nat) : ∃ ds : List Digit,
    ds ≠ [] ∧ Nat.toDigits 10 n = ds.map char ∧ value ds = n := by
  induction n using Nat.strongRecOn with
  | ind n ih =>
    by_cases hlt : n < 10
    · refine ⟨[⟨n, hlt⟩], by simp, ?_, ?_⟩
      · rw [Nat.toDigits_of_lt_base hlt]
        rfl
      · simp [value]
    · -- writing recurses on the quotient, which is less but not the predecessor
      obtain ⟨ds, -, hds, hvalue⟩ := ih (n / 10) (by omega)
      have hd : n % 10 < 10 := Nat.mod_lt _ (by decide)
      refine ⟨ds ++ [⟨n % 10, hd⟩], by simp, ?_, ?_⟩
      · rw [Nat.toDigits_of_base_le (by decide) (by omega), hds, List.map_append]
        rfl
      · rw [value_concat, hvalue]
        exact Nat.div_add_mod n 10

end Digit

end RuleLang
