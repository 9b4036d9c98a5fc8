import Mathlib.Data.List.Find
import Mathlib.Data.List.TakeWhile
import RuleLang.Lexeme
import RuleLang.Text.Blank

/-!
# Forms of lexemes

A lexeme has one of five forms (`HasForm`), and which one it has is visible at its start. A text
that has one of the forms from end to end is found whole (`first_quotation`, `first_group`,
`first_symbol`, `first_eq_number`).

Blank characters and parentheses end every lexeme in front of them, except for one that is open to
the next mark: a quoted text or a group. So a piece that is found stays as it is when a separator
and anything else is put behind the text (`first_append_of_ne_nil`), and where no piece is found
none comes up, unless the text starts with a mark and what is put behind it closes this mark
(`first_append_of_closed`).
-/

namespace RuleLang

/-- Whether a character goes on with no number, no word and no symbol: a blank one or a
parenthesis. -/
def isSeparator (c : Char) : Bool :=
  isBlank c || c = '(' || c = ')'

/-- No blank character lies between the space and the next line. -/
theorem toNat_of_isBlank {c : Char} (h : isBlank c = true) : c.toNat ≤ 32 ∨ 133 ≤ c.toNat := by
  simp only [isBlank, CharSet.has, blankCharacters, List.any_cons, List.any_nil, Bool.or_false,
    Bool.or_eq_true, Bool.and_eq_true, decide_eq_true_eq] at h
  omega

/-- The digits are ten code points in a row. -/
theorem Digit.isDigit_iff {c : Char} : Digit.isDigit c = true ↔ 48 ≤ c.toNat ∧ c.toNat < 58 := by
  have hzero : '0'.toNat = 48 := rfl
  unfold Digit.isDigit Digit.ofChar?
  split
  · exact iff_of_true rfl (by omega)
  · exact iff_of_false (by simp) (by omega)

/-- A separator is no digit. -/
theorem isDigit_of_isSeparator {c : Char} (h : isSeparator c = true) :
    Digit.isDigit c = false := by
  rw [Bool.eq_false_iff]
  intro hdigit
  rw [Digit.isDigit_iff] at hdigit
  simp only [isSeparator, Bool.or_eq_true, decide_eq_true_eq] at h
  -- digits lie between the ranges of blank characters
  rcases h with (hblank | rfl) | rfl
  · have := toNat_of_isBlank hblank
    omega
  · revert hdigit
    decide
  · revert hdigit
    decide

/-- A separator differs from every character that is none. -/
theorem ne_of_isSeparator {c d : Char} (hc : isSeparator c = true) (hd : isSeparator d = false) :
    c ≠ d := by
  rintro rfl
  rw [hc] at hd
  cases hd

/-- A blank character differs from every character that is not blank. -/
theorem ne_of_isBlank {c d : Char} (hc : isBlank c = true) (hd : isBlank d = false) : c ≠ d := by
  rintro rfl
  rw [hc] at hd
  cases hd

/-! ### Runs of characters -/

section Runs

variable {α : Type} {p : α → Bool} {a : α}

/-- A run ends at a character that does not go on with it, whatever stands behind. -/
theorem takeWhile_append_cons (h : p a = false) (as rest : List α) :
    (as ++ a :: rest).takeWhile p = as.takeWhile p := by
  induction as with
  | nil => simp [h]
  | cons b as ih => rw [List.cons_append, List.takeWhile_cons, List.takeWhile_cons, ih]

/-- What is left behind a run keeps that character and all behind it. -/
theorem dropWhile_append_cons (h : p a = false) (as rest : List α) :
    (as ++ a :: rest).dropWhile p = as.dropWhile p ++ a :: rest := by
  induction as with
  | nil => simp [h]
  | cons b as ih =>
    rw [List.cons_append, List.dropWhile_cons, List.dropWhile_cons, ih]
    split <;> rfl

/-- A word without a certain character is not completed by it. -/
theorem isPrefixOf_append_cons [BEq α] [LawfulBEq α] {word : List α} (h : a ∉ word)
    (as rest : List α) : word.isPrefixOf (as ++ a :: rest) = word.isPrefixOf as := by
  induction word generalizing as with
  | nil => rfl
  | cons b word ih =>
    obtain ⟨hne, hword⟩ : a ≠ b ∧ a ∉ word := by simpa using h
    cases as with
    | nil => simp [List.isPrefixOf, Ne.symm hne]
    | cons c as =>
      rw [List.cons_append, List.isPrefixOf, List.isPrefixOf, ih hword]

end Runs

namespace Lexeme

variable {c : Char}

/-- A point in front of a text and the digits behind it. -/
def fraction : List Char → List Char
  | '.' :: cs => '.' :: cs.takeWhile Digit.isDigit
  | _ => []

theorem fraction_of_ne {d : Char} (h : d ≠ '.') (cs : List Char) : fraction (d :: cs) = [] := by
  unfold fraction
  split
  · rename_i hpoint
    exact absurd (List.cons.inj hpoint).1 h
  · rfl

/-- A number without a sign is a run of digits and its fraction. -/
theorem unsigned_eq {cs : List Char} (h : cs.takeWhile Digit.isDigit ≠ []) :
    unsigned cs = cs.takeWhile Digit.isDigit ++ fraction (cs.dropWhile Digit.isDigit) := by
  unfold unsigned
  rw [if_neg h]
  cases cs.dropWhile Digit.isDigit with
  | nil => exact (List.append_nil _).symm
  | cons d ds =>
    by_cases hpoint : d = '.'
    · subst hpoint
      rfl
    · rw [fraction_of_ne hpoint, List.append_nil]
      split
      · rename_i heq
        exact absurd (List.cons.inj heq).1 hpoint
      · rfl

theorem unsigned_of_takeWhile_eq_nil {cs : List Char} (h : cs.takeWhile Digit.isDigit = []) :
    unsigned cs = [] := if_pos h

/-- A separator does not go on with a fraction. -/
theorem fraction_append (hc : isSeparator c = true) (cs rest : List Char) :
    fraction (cs ++ c :: rest) = fraction cs := by
  cases cs with
  | nil => exact fraction_of_ne (ne_of_isSeparator hc (by decide)) rest
  | cons d cs =>
    by_cases hpoint : d = '.'
    · subst hpoint
      rw [List.cons_append, fraction, takeWhile_append_cons (isDigit_of_isSeparator hc)]
      rfl
    · rw [List.cons_append, fraction_of_ne hpoint, fraction_of_ne hpoint]

/-- A separator does not go on with a number. -/
theorem unsigned_append (hc : isSeparator c = true) (cs rest : List Char) :
    unsigned (cs ++ c :: rest) = unsigned cs := by
  have hdigit := isDigit_of_isSeparator hc
  -- if there are no digits, the separator is none either
  by_cases hcs : cs.takeWhile Digit.isDigit = []
  · rw [unsigned_of_takeWhile_eq_nil hcs, unsigned_of_takeWhile_eq_nil]
    rwa [takeWhile_append_cons hdigit]
  · have happend : (cs ++ c :: rest).takeWhile Digit.isDigit ≠ [] := by
      rwa [takeWhile_append_cons hdigit]
    rw [unsigned_eq hcs, unsigned_eq happend, takeWhile_append_cons hdigit,
      dropWhile_append_cons hdigit, fraction_append hc]

theorem number_of_ne {d : Char} (h : d ≠ '-') (cs : List Char) :
    number (d :: cs) = unsigned (d :: cs) := by
  unfold number
  split
  · rename_i hminus
    exact absurd (List.cons.inj hminus).1 h
  · rfl

/-- A separator does not go on with a number that may have a sign. -/
theorem number_append (hc : isSeparator c = true) (cs rest : List Char) :
    number (cs ++ c :: rest) = number cs := by
  cases cs with
  | nil =>
    rw [List.nil_append, number_of_ne (ne_of_isSeparator hc (by decide))]
    exact unsigned_append hc [] rest
  | cons d cs =>
    by_cases hminus : d = '-'
    · subst hminus
      rw [List.cons_append, number, number, unsigned_append hc]
    · rw [List.cons_append, number_of_ne hminus, number_of_ne hminus, ← List.cons_append,
        unsigned_append hc]

/-- A separator does not go on with a truth value. -/
theorem truth_append (hc : isSeparator c = true) (cs rest : List Char) :
    truth (cs ++ c :: rest) = truth cs := by
  have hwords : ∀ word ∈ ["True", "False", "true", "false"].map String.toList,
      word.any isSeparator = false := by decide +kernel
  -- none of the words has a separator in it
  have hsame : ∀ word ∈ ["True", "False", "true", "false"].map String.toList,
      word.isPrefixOf (cs ++ c :: rest) = word.isPrefixOf cs := by
    intro word hword
    refine isPrefixOf_append_cons (fun hmem => ?_) cs rest
    exact List.any_eq_false.mp (hwords word hword) c hmem hc
  unfold truth
  rw [List.find?_congr hsame]

/-- A truth value that is found is one of the words. -/
theorem exists_of_truth_ne_nil {cs : List Char} (h : truth cs ≠ []) :
    ∃ word ∈ ["True", "False", "true", "false"], word.toList = truth cs := by
  unfold truth at h ⊢
  cases hfound : (["True", "False", "true", "false"].map String.toList).find? (·.isPrefixOf cs) with
  | none =>
    rw [hfound] at h
    exact absurd rfl h
  | some found =>
    obtain ⟨word, hword, rfl⟩ := List.mem_map.mp (List.mem_of_find?_eq_some hfound)
    exact ⟨word, hword, rfl⟩

/-- Whether a symbol stands in front of a text shows in the first one or two characters. -/
theorem isSome_ofSymbol?_take_iff {cs : List Char} {n : Nat} :
    (Operator.ofSymbol? (String.ofList (cs.take n))).isSome ↔
      ∃ op : Operator, op.symbol.toList = cs.take n := by
  rw [Option.isSome_iff_exists]
  refine exists_congr fun op => ?_
  rw [Operator.ofSymbol?_eq_some_iff]
  constructor
  · intro h
    rw [h, String.toList_ofList]
  · intro h
    rw [← h, String.ofList_toList]

/-- A symbol that is found is that of an operator. -/
theorem exists_of_symbol_ne_nil {cs : List Char} (h : symbol cs ≠ []) :
    ∃ op : Operator, op.symbol.toList = symbol cs := by
  unfold symbol at h ⊢
  split
  · exact isSome_ofSymbol?_take_iff.mp ‹_›
  · rename_i htwo
    rw [if_neg htwo] at h
    split
    · exact isSome_ofSymbol?_take_iff.mp ‹_›
    · rename_i hone
      exact absurd (if_neg hone) h

/-- A text that is the symbol of no operator names none. -/
theorem ofSymbol?_eq_none {cs : List Char} (h : ∀ op : Operator, op.symbol.toList ≠ cs) :
    Operator.ofSymbol? (String.ofList cs) = none := by
  rw [Option.eq_none_iff_forall_ne_some]
  intro op hop
  refine h op ?_
  rw [Operator.ofSymbol?_eq_some_iff.mp hop, String.toList_ofList]

/-- Only the first character of a symbol can be a separator. -/
theorem any_isSeparator_tail_symbol (op : Operator) :
    op.symbol.toList.tail.any isSeparator = false := by
  cases op <;> decide +kernel

/-- No symbol ends in a separator that stands behind something. -/
theorem symbol_append (hc : isSeparator c = true) {cs : List Char} (hcs : cs ≠ [])
    (rest : List Char) : symbol (cs ++ c :: rest) = symbol cs := by
  rcases cs with _ | ⟨a, _ | ⟨b, cs⟩⟩
  · exact absurd rfl hcs
  · -- one character is left, and with the separator behind it no symbol of two
    have hnone : Operator.ofSymbol? (String.ofList [a, c]) = none := by
      refine ofSymbol?_eq_none fun op hop => ?_
      have hsecond := any_isSeparator_tail_symbol op
      rw [hop] at hsecond
      exact List.any_eq_false.mp hsecond c (List.mem_singleton_self c) hc
    change (if (Operator.ofSymbol? (String.ofList [a, c])).isSome then [a, c]
      else if (Operator.ofSymbol? (String.ofList [a])).isSome then [a] else []) = _
    rw [hnone, if_neg (by simp)]
    change _ = if (Operator.ofSymbol? (String.ofList [a])).isSome then [a]
      else if (Operator.ofSymbol? (String.ofList [a])).isSome then [a] else []
    split <;> rfl
  · rfl

/-! ### Marked pieces -/

section Enclosed

variable {opening closing : Char} {inside : Char → Bool} {cs : List Char}

/-- A piece between marks starts with its opening mark. -/
theorem enclosed_of_ne {d : Char} (h : d ≠ opening) (cs : List Char) :
    enclosed opening closing inside (d :: cs) = [] :=
  if_neg fun hmarks => h hmarks.1

/-- **A piece between marks** ends at the first character that does not belong inside, if that is
the closing mark. -/
theorem enclosed_of_inside {inner : List Char} (hinner : ∀ d ∈ inner, inside d = true)
    (hclosing : inside closing = false) (rest : List Char) :
    enclosed opening closing inside (opening :: inner ++ closing :: rest)
      = opening :: inner ++ [closing] := by
  rw [List.cons_append, enclosed, List.dropWhile_append_of_pos hinner,
    List.takeWhile_append_of_pos hinner, List.dropWhile_cons_of_neg (by simp [hclosing]),
    List.takeWhile_cons_of_neg (by simp [hclosing]), if_pos ⟨rfl, rfl⟩, List.append_nil]
  rfl

/-- Every piece between marks is of that form. -/
theorem exists_of_enclosed_ne_nil (h : enclosed opening closing inside cs ≠ []) :
    ∃ inner rest, cs = opening :: inner ++ closing :: rest ∧ (∀ d ∈ inner, inside d = true) ∧
      inside closing = false := by
  cases cs with
  | nil => exact absurd rfl h
  | cons d cs =>
    -- the text is cut at the first character that does not belong inside
    by_cases hmarks : d = opening ∧ (cs.dropWhile inside).head? = some closing
    · obtain ⟨rfl, hclosing⟩ := hmarks
      obtain ⟨rest, hrest⟩ := List.head?_eq_some_iff.mp hclosing
      refine ⟨cs.takeWhile inside, rest, ?_, fun d => List.mem_takeWhile_imp, ?_⟩
      · rw [List.cons_append, ← hrest, List.takeWhile_append_dropWhile]
      · have hhead := List.head?_dropWhile_not inside cs
        rw [hclosing] at hhead
        simpa using hhead
    · exact absurd (if_neg hmarks) h

/-- A piece that is closed does not go on, whatever follows. -/
theorem enclosed_append_of_ne_nil (h : enclosed opening closing inside cs ≠ [])
    (more : List Char) :
    enclosed opening closing inside (cs ++ more) = enclosed opening closing inside cs := by
  obtain ⟨inner, rest, rfl, hinner, hclosing⟩ := exists_of_enclosed_ne_nil h
  have hparts : opening :: inner ++ closing :: rest ++ more
      = opening :: inner ++ closing :: (rest ++ more) := by
    rw [List.append_assoc, List.cons_append]
    rfl
  rw [hparts, enclosed_of_inside hinner hclosing, enclosed_of_inside hinner hclosing]

/-- No piece is closed by what does not have the closing mark. -/
theorem enclosed_append_of_not_mem {more : List Char} (hmore : closing ∉ more) :
    enclosed opening closing inside (cs ++ more) = enclosed opening closing inside cs := by
  -- a piece of the longer text may have been there before; a new one needs its closing mark
  by_cases happend : enclosed opening closing inside (cs ++ more) = []
  · by_cases h : enclosed opening closing inside cs = []
    · rw [happend, h]
    · exact enclosed_append_of_ne_nil h more
  · obtain ⟨inner, rest, hparts, hinner, hclosing⟩ := exists_of_enclosed_ne_nil happend
    -- the closing mark would be in `more`, or the piece is in `cs` as a whole
    rcases List.append_eq_append_iff.mp hparts with ⟨others, -, hothers⟩ | ⟨others, rfl, hothers⟩
    · rw [hothers] at hmore
      simp at hmore
    · cases others with
      | nil =>
        rw [List.nil_append] at hothers
        exact absurd (hothers ▸ List.mem_cons_self) hmore
      | cons d others =>
        obtain ⟨rfl, -⟩ := List.cons.inj hothers
        rw [hparts, enclosed_of_inside hinner hclosing, enclosed_of_inside hinner hclosing]

end Enclosed

/-! ### The first form that has a piece -/

/-- If neither a quotation nor a group goes on behind a separator, no piece does. -/
theorem first_append (hc : isSeparator c = true) {cs rest : List Char} (hcs : cs ≠ [])
    (hquotation : quotation (cs ++ c :: rest) = quotation cs)
    (hgroup : group (cs ++ c :: rest) = group cs) : first (cs ++ c :: rest) = first cs := by
  simp only [first, List.map_cons, List.map_nil, number_append hc, truth_append hc,
    symbol_append hc hcs, hquotation, hgroup]

theorem first_eq_number {cs : List Char} (h : number cs ≠ []) : first cs = number cs := by
  simp [first, h]

/-- No symbol is found in front of a text that starts as none does. -/
theorem symbol_of_head {d : Char} (h : ∀ op : Operator, op.symbol.toList.head? ≠ some d)
    (cs : List Char) : symbol (d :: cs) = [] := by
  have hnone (ds : List Char) : Operator.ofSymbol? (String.ofList (d :: ds)) = none :=
    ofSymbol?_eq_none fun op hop => h op (by rw [hop]; rfl)
  have htwo : (d :: cs).take 2 = d :: cs.take 1 := rfl
  have hone : (d :: cs).take 1 = d :: cs.take 0 := rfl
  rw [symbol, htwo, hone, hnone, hnone, if_neg (by simp), if_neg (by simp)]

/-- What starts with a quote is a quotation or nothing. -/
theorem first_quote (cs : List Char) : first ('"' :: cs) = quotation ('"' :: cs) := by
  have hnumber : number ('"' :: cs) = [] := rfl
  have htruth : truth ('"' :: cs) = [] := rfl
  have hsymbol : symbol ('"' :: cs) = [] := symbol_of_head (fun op => by cases op <;> decide) cs
  have hgroup : group ('"' :: cs) = [] := rfl
  -- no other form starts with a quote
  by_cases h : quotation ('"' :: cs) = []
  · simp [first, hnumber, htruth, hsymbol, hgroup, h]
  · simp [first, hnumber, h]

/-- What starts with a bracket is a group or nothing. -/
theorem first_bracket (cs : List Char) : first ('[' :: cs) = group ('[' :: cs) := by
  have hnumber : number ('[' :: cs) = [] := rfl
  have hquotation : quotation ('[' :: cs) = [] := rfl
  have htruth : truth ('[' :: cs) = [] := rfl
  have hsymbol : symbol ('[' :: cs) = [] := symbol_of_head (fun op => by cases op <;> decide) cs
  -- no other form starts with a bracket
  by_cases h : group ('[' :: cs) = []
  · simp [first, hnumber, hquotation, htruth, hsymbol, h]
  · simp [first, hnumber, hquotation, htruth, hsymbol, h]

/-- A piece stays the same when the text goes on with a separator. -/
theorem first_append_of_ne_nil (hc : isSeparator c = true) {cs : List Char} (h : first cs ≠ [])
    (rest : List Char) : first (cs ++ c :: rest) = first cs := by
  cases cs with
  | nil => exact absurd rfl h
  | cons d cs =>
    have hcs : d :: cs ≠ [] := List.cons_ne_nil d cs
    -- only a piece between marks could go on, and this one is closed already
    by_cases hquote : d = '"'
    · subst hquote
      rw [first_quote] at h
      exact first_append hc hcs (enclosed_append_of_ne_nil h (c :: rest)) rfl
    · have hquotation (es : List Char) : quotation (d :: es) = [] := enclosed_of_ne hquote es
      by_cases hbracket : d = '['
      · subst hbracket
        rw [first_bracket] at h
        exact first_append hc hcs rfl (enclosed_append_of_ne_nil h (c :: rest))
      · have hgroup (es : List Char) : group (d :: es) = [] := enclosed_of_ne hbracket es
        exact first_append hc hcs (by rw [List.cons_append, hquotation, hquotation])
          (by rw [List.cons_append, hgroup, hgroup])

/-- No piece comes up in front of a text because it goes on with a separator, unless a mark is
closed in what follows that the text leaves open. -/
theorem first_append_of_closed (hc : isSeparator c = true) {d : Char} {cs rest : List Char}
    (hquote : d ≠ '"' ∨ '"' ∉ c :: rest) (hbracket : d ≠ '[' ∨ ']' ∉ c :: rest) :
    first (d :: cs ++ c :: rest) = first (d :: cs) := by
  refine first_append hc (List.cons_ne_nil d cs) ?_ ?_
  · rcases hquote with hne | hmem
    · rw [List.cons_append, quotation, enclosed_of_ne hne, quotation, enclosed_of_ne hne]
    · exact enclosed_append_of_not_mem hmem
  · rcases hbracket with hne | hmem
    · rw [List.cons_append, group, enclosed_of_ne hne, group, enclosed_of_ne hne]
    · exact enclosed_append_of_not_mem hmem

theorem truth_of_isSeparator (hc : isSeparator c = true) (cs : List Char) :
    truth (c :: cs) = [] := by
  have happend := truth_append hc [] cs
  rw [List.nil_append] at happend
  rw [happend]
  rfl

theorem number_of_isSeparator (hc : isSeparator c = true) (cs : List Char) :
    number (c :: cs) = [] := number_append hc [] cs

/-- A parenthesis is a piece of its own. -/
theorem first_paren (hc : c = '(' ∨ c = ')') (cs : List Char) : first (c :: cs) = [c] := by
  have hseparator : isSeparator c = true := by rcases hc with rfl | rfl <;> rfl
  have hquotation : quotation (c :: cs) = [] := by rcases hc with rfl | rfl <;> rfl
  -- no symbol of two characters starts with a parenthesis
  have hsymbol : symbol (c :: cs) = [c] := by
    have hone : (Operator.ofSymbol? (String.ofList [c])).isSome := by
      rcases hc with rfl | rfl <;> rfl
    cases cs with
    | nil => rw [symbol, List.take_of_length_le (by simp), if_pos hone]
    | cons d cs =>
      have htwo : Operator.ofSymbol? (String.ofList [c, d]) = none := by
        refine ofSymbol?_eq_none fun op hop => ?_
        cases op <;> rcases hc with rfl | rfl <;> simp [Operator.symbol] at hop
      change (if (Operator.ofSymbol? (String.ofList [c, d])).isSome then [c, d]
        else if (Operator.ofSymbol? (String.ofList [c])).isSome then [c] else []) = [c]
      rw [htwo, if_neg (by simp), if_pos hone]
  simp [first, number_of_isSeparator hseparator, hquotation, truth_of_isSeparator hseparator,
    hsymbol]

/-- No piece starts with a blank character. -/
theorem first_blank (hc : isBlank c = true) (cs : List Char) : first (c :: cs) = [] := by
  have hseparator : isSeparator c = true := by simp [isSeparator, hc]
  have hquotation : quotation (c :: cs) = [] := enclosed_of_ne (ne_of_isBlank hc rfl) cs
  have hgroup : group (c :: cs) = [] := enclosed_of_ne (ne_of_isBlank hc rfl) cs
  -- no symbol starts with a blank character
  have hsymbol : symbol (c :: cs) = [] := by
    refine symbol_of_head (fun op hop => ?_) cs
    have hhead : op.symbol.toList.head?.any isBlank = false := by
      cases op <;> decide +kernel
    rw [hop, Option.any_some, hc] at hhead
    cases hhead
  simp [first, number_of_isSeparator hseparator, hquotation, truth_of_isSeparator hseparator,
    hsymbol, hgroup]

/-! ### What pieces look like -/

/-- The five forms, numbers by their first characters only. -/
inductive HasForm : List Char → Prop where
  | unsigned {d : Char} {cs : List Char} (hd : Digit.isDigit d = true) : HasForm (d :: cs)
  | signed {d : Char} {cs : List Char} (hd : Digit.isDigit d = true) : HasForm ('-' :: d :: cs)
  | quotation {inner : List Char} (hinner : '"' ∉ inner) : HasForm ('"' :: inner ++ ['"'])
  | truth {word : String} (hword : word ∈ ["True", "False", "true", "false"]) :
      HasForm word.toList
  | symbol (op : Operator) : HasForm op.symbol.toList
  | group {inner : List Char} (hinner : '[' ∉ inner ∧ ']' ∉ inner) :
      HasForm ('[' :: inner ++ [']'])

/-- A number without a sign starts with a digit. -/
theorem hasForm_unsigned {cs : List Char} (h : unsigned cs ≠ []) :
    ∃ d ds, unsigned cs = d :: ds ∧ Digit.isDigit d = true := by
  by_cases hwhole : cs.takeWhile Digit.isDigit = []
  · exact absurd (unsigned_of_takeWhile_eq_nil hwhole) h
  · rw [unsigned_eq hwhole]
    obtain ⟨d, ds, hds⟩ := List.exists_cons_of_ne_nil hwhole
    have hd : d ∈ cs.takeWhile Digit.isDigit := hds ▸ List.mem_cons_self
    exact ⟨d, _, by rw [hds, List.cons_append], List.mem_takeWhile_imp hd⟩

theorem hasForm_number {cs : List Char} (h : number cs ≠ []) : HasForm (number cs) := by
  cases cs with
  | nil => exact absurd rfl h
  | cons c cs =>
    by_cases hminus : c = '-'
    · subst hminus
      rw [number] at h ⊢
      by_cases hunsigned : unsigned cs = []
      · exact absurd (if_pos hunsigned) h
      · obtain ⟨d, ds, hds, hd⟩ := hasForm_unsigned hunsigned
        rw [if_neg hunsigned, hds]
        exact .signed hd
    · rw [number_of_ne hminus] at h ⊢
      obtain ⟨d, ds, hds, hd⟩ := hasForm_unsigned h
      rw [hds]
      exact .unsigned hd

/-- A quotation has no quote inside. -/
theorem hasForm_quotation {cs : List Char} (h : quotation cs ≠ []) : HasForm (quotation cs) := by
  obtain ⟨inner, rest, rfl, hinner, hclosing⟩ := exists_of_enclosed_ne_nil h
  rw [quotation, enclosed_of_inside hinner hclosing]
  refine .quotation fun hmem => ?_
  simpa using hinner '"' hmem

theorem hasForm_truth {cs : List Char} (h : truth cs ≠ []) : HasForm (truth cs) := by
  obtain ⟨word, hword, htruth⟩ := exists_of_truth_ne_nil h
  rw [← htruth]
  exact .truth hword

theorem hasForm_symbol {cs : List Char} (h : symbol cs ≠ []) : HasForm (symbol cs) := by
  obtain ⟨op, hop⟩ := exists_of_symbol_ne_nil h
  rw [← hop]
  exact .symbol op

/-- A group has no bracket inside. -/
theorem hasForm_group {cs : List Char} (h : group cs ≠ []) : HasForm (group cs) := by
  obtain ⟨inner, rest, rfl, hinner, hclosing⟩ := exists_of_enclosed_ne_nil h
  rw [group, enclosed_of_inside hinner hclosing]
  refine .group ⟨fun hmem => ?_, fun hmem => ?_⟩
  · simpa using hinner '[' hmem
  · simpa using hinner ']' hmem

/-- **A piece** has one of the five forms. -/
theorem hasForm_first {cs : List Char} (h : first cs ≠ []) : HasForm (first cs) := by
  unfold first at h ⊢
  cases hpiece : ([number, quotation, truth, symbol, group].map (· cs)).find? (· ≠ []) with
  | none =>
    rw [hpiece] at h
    exact absurd rfl h
  | some piece =>
    have hne : piece ≠ [] := by simpa using List.find?_some hpiece
    obtain ⟨form, hform, rfl⟩ := List.mem_map.mp (List.mem_of_find?_eq_some hpiece)
    simp only [List.mem_cons, List.not_mem_nil, or_false] at hform
    -- the piece was found by one of the five searches, in the order in which they are tried
    obtain rfl | rfl | rfl | rfl | rfl := hform
    · exact hasForm_number hne
    · exact hasForm_quotation hne
    · exact hasForm_truth hne
    · exact hasForm_symbol hne
    · exact hasForm_group hne

namespace HasForm

variable {cs : List Char}

/-- **The start of a piece** says how it goes on, where it is a minus sign or a mark. -/
theorem of_cons (h : HasForm (c :: cs)) :
    c ∉ ['-', '"', '['] ∨
      c = '-' ∧ (cs = [] ∨ ∃ d ds, cs = d :: ds ∧ Digit.isDigit d = true) ∨
      c = '"' ∧ (∃ inner, cs = inner ++ ['"'] ∧ '"' ∉ inner) ∨
      c = '[' ∧ ∃ inner, cs = inner ++ [']'] ∧ '[' ∉ inner ∧ ']' ∉ inner := by
  generalize hpiece : c :: cs = piece at h
  -- by form; a symbol that starts with a mark is the minus sign alone
  cases h with
  | @unsigned d ds hd =>
    obtain ⟨rfl, -⟩ := List.cons.inj hpiece
    have hmarks : ['-', '"', '['].any Digit.isDigit = false := by decide
    exact Or.inl fun hmem => List.any_eq_false.mp hmarks c hmem hd
  | @signed d ds hd =>
    obtain ⟨rfl, rfl⟩ := List.cons.inj hpiece
    exact Or.inr (Or.inl ⟨rfl, Or.inr ⟨d, ds, rfl, hd⟩⟩)
  | @quotation inner hinner =>
    obtain ⟨rfl, rfl⟩ := List.cons.inj hpiece
    exact Or.inr (Or.inr (Or.inl ⟨rfl, inner, rfl, hinner⟩))
  | @truth word hword =>
    have hhead : ∀ word ∈ ["True", "False", "true", "false"],
        word.toList.head?.any (· ∈ ['-', '"', '[']) = false := by decide
    have hc := hhead word hword
    rw [← hpiece, List.head?_cons, Option.any_some, decide_eq_false_iff_not] at hc
    exact Or.inl hc
  | symbol op =>
    have hhead : op.symbol.toList.head?.any (· ∈ ['-', '"', '[']) = true →
        op.symbol.toList = ['-'] := by
      cases op <;> decide
    rw [← hpiece, List.head?_cons, Option.any_some, decide_eq_true_iff] at hhead
    by_cases hc : c ∈ ['-', '"', '[']
    · obtain ⟨rfl, rfl⟩ := List.cons.inj (hhead hc)
      exact Or.inr (Or.inl ⟨rfl, Or.inl rfl⟩)
    · exact Or.inl hc
  | @group inner hinner =>
    obtain ⟨rfl, rfl⟩ := List.cons.inj hpiece
    exact Or.inr (Or.inr (Or.inr ⟨rfl, inner, rfl, hinner⟩))

/-- Behind a minus sign comes a digit, if anything. -/
theorem of_minus (h : HasForm ('-' :: cs)) (hcs : cs ≠ []) :
    ∃ d ds, cs = d :: ds ∧ Digit.isDigit d = true := by
  simpa [hcs] using h.of_cons

theorem of_quote (h : HasForm ('"' :: cs)) : ∃ inner, cs = inner ++ ['"'] ∧ '"' ∉ inner := by
  simpa using h.of_cons

theorem of_bracket (h : HasForm ('[' :: cs)) :
    ∃ inner, cs = inner ++ [']'] ∧ '[' ∉ inner ∧ ']' ∉ inner := by
  simpa using h.of_cons

end HasForm

/-! ### Pieces that are found whole -/

/-- A quoted text ends at its second quote, whatever follows. -/
theorem first_quotation_append {inner : List Char} (h : '"' ∉ inner) (rest : List Char) :
    first ('"' :: inner ++ '"' :: rest) = '"' :: inner ++ ['"'] := by
  rw [List.cons_append, first_quote, quotation, ← List.cons_append]
  refine enclosed_of_inside (fun d hd => ?_) (by decide) rest
  exact decide_eq_true fun hquote => h (hquote ▸ hd)

theorem first_quotation {inner : List Char} (h : '"' ∉ inner) :
    first ('"' :: inner ++ ['"']) = '"' :: inner ++ ['"'] :=
  first_quotation_append h []

/-- A group ends at its closing bracket, whatever follows. -/
theorem first_group_append {inner : List Char} (h : '[' ∉ inner ∧ ']' ∉ inner)
    (rest : List Char) : first ('[' :: inner ++ ']' :: rest) = '[' :: inner ++ [']'] := by
  rw [List.cons_append, first_bracket, group, ← List.cons_append]
  refine enclosed_of_inside (fun d hd => ?_) (by decide) rest
  have hopening : d ≠ '[' := fun heq => h.1 (heq ▸ hd)
  have hclosing : d ≠ ']' := fun heq => h.2 (heq ▸ hd)
  simp [hopening, hclosing]

theorem first_group {inner : List Char} (h : '[' ∉ inner ∧ ']' ∉ inner) :
    first ('[' :: inner ++ [']']) = '[' :: inner ++ [']'] :=
  first_group_append h []

/-- A symbol is found whole. -/
theorem first_symbol (op : Operator) : first op.symbol.toList = op.symbol.toList := by
  cases op <;> decide +kernel

end Lexeme
end RuleLang
