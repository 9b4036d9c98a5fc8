import RuleLang.Proofs.Seams

/-!
# What ends a piece

A piece is made of its own characters, and the only other character that it depends on is the one
right behind it: a digit or a point would make a number longer, an equals sign a comparison. So a
piece stays the same when the text behind it is replaced by one that stops it as well (`StopsAs`):
one that is empty, that starts with a blank character, or that starts as the text did which was
there before (`first_stopsAs`). For the form that a run of characters has, this is a property of
`takeWhile` (`takeWhile_stopsAs`), and a number is two such runs with a point between them.

Where no form has a piece the reason can be read off the text too (`first_eq_nil_iff`): for marks it
is that the next mark is not the one that closes them, for words and symbols that none of them is a
prefix.
-/

namespace RuleLang.Lexeme

variable {rest rest' piece : List Char} {c : Char}

/-- **Stopping a piece** as `rest` does: at the end of the text, in front of a blank character, or
in front of the character that `rest` starts with. -/
def StopsAs (rest rest' : List Char) : Prop :=
  ∀ c ∈ rest'.head?, isBlank c = true ∨ c ∈ rest.head?

/-- What holds of blank characters and of the start of `rest` holds of the start of `rest'`. -/
theorem StopsAs.forall_head {P : Char → Prop} (h : StopsAs rest rest')
    (hblank : ∀ c, isBlank c = true → P c) (hrest : ∀ c ∈ rest.head?, P c) :
    ∀ c ∈ rest'.head?, P c := by
  intro c hc
  rcases h c hc with hb | hmem
  · exact hblank c hb
  · exact hrest c hmem

/-- What stands in front of both makes no difference. -/
theorem StopsAs.append_left (h : StopsAs rest rest') (cs : List Char) :
    StopsAs (cs ++ rest) (cs ++ rest') := by
  cases cs with
  | nil => exact h
  | cons d cs => exact fun c hc => Or.inr hc

/-! ### Numbers -/

/-- A blank character is no digit. -/
theorem isDigit_of_isBlank (h : isBlank c = true) : Digit.isDigit c = false :=
  isDigit_of_isSeparator (by simp [isSeparator, h])

/-- A run of characters ends where it did. -/
theorem takeWhile_stopsAs (h : StopsAs rest rest') {p : Char → Bool}
    (hblank : ∀ c, isBlank c = true → p c = false) {run : List Char}
    (hrun : (run ++ rest).takeWhile p = run) : (run ++ rest').takeWhile p = run := by
  have hinside : ∀ c ∈ run, p c = true := by
    intro c hc
    rw [← hrun] at hc
    exact List.mem_takeWhile_imp hc
  -- the run ended because `rest` does not go on with it
  have hhead : ∀ c ∈ rest.head?, p c = false := by
    rw [List.takeWhile_append_of_pos hinside, List.append_right_eq_self] at hrun
    intro c hc
    obtain ⟨behind, rfl⟩ := List.head?_eq_some_iff.mp hc
    rw [Bool.eq_false_iff]
    intro hpc
    rw [List.takeWhile_cons_of_pos hpc] at hrun
    cases hrun
  -- and `rest'` does not go on with it either, as it starts with a blank or as `rest` does
  rw [List.takeWhile_append_of_pos hinside, List.append_right_eq_self]
  cases rest' with
  | nil => rfl
  | cons d behind =>
    have hd := h.forall_head hblank hhead d rfl
    exact List.takeWhile_cons_of_neg (by simp [hd])

/-- A fraction ends where it did. -/
theorem fraction_stopsAs (h : StopsAs rest rest') (hpiece : fraction (piece ++ rest) = piece) :
    fraction (piece ++ rest') = piece := by
  cases piece with
  | nil =>
    -- there was no point, and none comes up
    have hhead : ∀ c ∈ rest.head?, c ≠ '.' := by
      rintro c hc rfl
      obtain ⟨behind, rfl⟩ := List.head?_eq_some_iff.mp hc
      cases hpiece
    have hblank : ∀ c, isBlank c = true → c ≠ '.' := by
      rintro c hc rfl
      cases hc
    cases rest' with
    | nil => rfl
    | cons d behind => exact fraction_of_ne (h.forall_head hblank hhead d rfl) behind
  | cons d digits =>
    by_cases hpoint : d = '.'
    · subst hpoint
      have hdigits : (digits ++ rest).takeWhile Digit.isDigit = digits := (List.cons.inj hpiece).2
      exact congrArg _ (takeWhile_stopsAs h (fun c => isDigit_of_isBlank) hdigits)
    · rw [List.cons_append, fraction_of_ne hpoint] at hpiece
      cases hpiece

/-- There is no number just where there are no digits. -/
theorem unsigned_eq_nil_iff {cs : List Char} :
    unsigned cs = [] ↔ cs.takeWhile Digit.isDigit = [] := by
  refine ⟨fun h => ?_, unsigned_of_takeWhile_eq_nil⟩
  by_contra hwhole
  rw [unsigned_eq hwhole] at h
  exact hwhole (List.append_eq_nil_iff.mp h).1

/-- What is left behind a run is the rest of the text. -/
theorem dropWhile_of_takeWhile {p : Char → Bool} {run : List Char}
    (hrun : (run ++ rest).takeWhile p = run) : (run ++ rest).dropWhile p = rest := by
  have hsplit := List.takeWhile_append_dropWhile (p := p) (l := run ++ rest)
  rw [hrun] at hsplit
  exact List.append_cancel_left hsplit

/-- The two runs of an unsigned number, and the point at which the second one starts. -/
theorem unsigned_append_eq_iff (hne : piece ≠ []) :
    unsigned (piece ++ rest) = piece ↔
      ∃ digits point, piece = digits ++ point ∧ digits ≠ [] ∧
        (digits ++ (point ++ rest)).takeWhile Digit.isDigit = digits ∧
        fraction (point ++ rest) = point := by
  constructor
  · intro hpiece
    have hdigits : (piece ++ rest).takeWhile Digit.isDigit ≠ [] := by
      intro hnil
      rw [unsigned_of_takeWhile_eq_nil hnil] at hpiece
      exact hne hpiece.symm
    rw [unsigned_eq hdigits] at hpiece
    -- what is behind the digits is the point with its digits and the rest
    have hbehind : (piece ++ rest).dropWhile Digit.isDigit
        = fraction ((piece ++ rest).dropWhile Digit.isDigit) ++ rest := by
      have hsame : (piece ++ rest).takeWhile Digit.isDigit
          ++ (piece ++ rest).dropWhile Digit.isDigit
          = (piece ++ rest).takeWhile Digit.isDigit
            ++ (fraction ((piece ++ rest).dropWhile Digit.isDigit) ++ rest) := by
        rw [List.takeWhile_append_dropWhile, ← List.append_assoc, hpiece]
      exact List.append_cancel_left hsame
    refine ⟨_, _, hpiece.symm, hdigits, ?_, ?_⟩
    · rw [← List.append_assoc, hpiece]
    · rw [← hbehind]
  · rintro ⟨digits, point, rfl, hdigits, htake, hpoint⟩
    rw [List.append_assoc, unsigned_eq (by rwa [htake]), htake, dropWhile_of_takeWhile htake,
      hpoint]

/-- A number without a sign ends where it did. -/
theorem unsigned_stopsAs (h : StopsAs rest rest') (hne : piece ≠ [])
    (hpiece : unsigned (piece ++ rest) = piece) : unsigned (piece ++ rest') = piece := by
  -- the digits stop in front of the point, the digits behind it in front of the rest
  obtain ⟨digits, point, hparts, hdigits, htake, hpoint⟩ := (unsigned_append_eq_iff hne).mp hpiece
  refine (unsigned_append_eq_iff hne).mpr ⟨digits, point, hparts, hdigits, ?_, ?_⟩
  · exact takeWhile_stopsAs (h.append_left point) (fun c => isDigit_of_isBlank) htake
  · exact fraction_stopsAs h hpoint

/-- Behind a minus sign a number is looked for as without one. -/
theorem number_minus_eq_nil_iff {cs : List Char} : number ('-' :: cs) = [] ↔ unsigned cs = [] := by
  rw [number]
  split
  · rename_i hnil
    exact iff_of_true rfl hnil
  · rename_i hne
    exact iff_of_false (List.cons_ne_nil _ _) hne

/-- Without a minus sign, a number starts with a digit. -/
theorem number_cons_eq_nil_iff (h : c ≠ '-') {cs : List Char} :
    number (c :: cs) = [] ↔ Digit.isDigit c = false := by
  rw [number_of_ne h, unsigned_eq_nil_iff]
  cases hdigit : Digit.isDigit c with
  | true => simp [List.takeWhile_cons_of_pos hdigit]
  | false => simp [List.takeWhile_cons_of_neg (by simp [hdigit] : ¬ Digit.isDigit c = true)]

/-- **A number** ends where it did. -/
theorem number_stopsAs (h : StopsAs rest rest') (hne : piece ≠ [])
    (hpiece : number (piece ++ rest) = piece) : number (piece ++ rest') = piece := by
  cases piece with
  | nil => exact absurd rfl hne
  | cons d digits =>
    -- behind a minus sign the number is an unsigned one, which is not empty
    by_cases hminus : d = '-'
    · subst hminus
      rw [List.cons_append, number] at hpiece ⊢
      split at hpiece
      · cases hpiece
      · rename_i hunsigned
        have hdigits := (List.cons.inj hpiece).2
        have hdigitsNe : digits ≠ [] := by rwa [hdigits] at hunsigned
        rw [unsigned_stopsAs h hdigitsNe hdigits, if_neg hdigitsNe]
    · rw [List.cons_append, number_of_ne hminus] at hpiece ⊢
      exact unsigned_stopsAs h (List.cons_ne_nil d digits) hpiece

/-- A minus sign without a number behind it does not get one. -/
theorem number_eq_nil_stopsAs (h : StopsAs rest rest') (hne : piece ≠ [])
    (hnil : number (piece ++ rest) = []) : number (piece ++ rest') = [] := by
  cases piece with
  | nil => exact absurd rfl hne
  | cons d cs =>
    by_cases hminus : d = '-'
    · subst hminus
      rw [List.cons_append, number_minus_eq_nil_iff, unsigned_eq_nil_iff] at hnil ⊢
      exact @takeWhile_stopsAs _ _ (h.append_left cs) _ (fun c => isDigit_of_isBlank) [] hnil
    · rw [List.cons_append, number_cons_eq_nil_iff hminus] at hnil ⊢
      exact hnil

/-! ### Words and symbols -/

/-- A truth value is found just where one of the words starts the text. -/
theorem truth_eq_nil_iff {cs : List Char} :
    truth cs = [] ↔ ∀ word ∈ ["True", "False", "true", "false"], ¬ word.toList <+: cs := by
  constructor
  · intro h word hword hfront
    have hfound : ((["True", "False", "true", "false"].map String.toList).find?
        (·.isPrefixOf cs)).isSome :=
      List.find?_isSome.mpr ⟨_, List.mem_map_of_mem hword, List.isPrefixOf_iff_prefix.mpr hfront⟩
    obtain ⟨found, hfound⟩ := Option.isSome_iff_exists.mp hfound
    have hwords : ∀ word ∈ ["True", "False", "true", "false"].map String.toList, word ≠ [] := by
      decide
    rw [truth, hfound] at h
    exact hwords found (List.mem_of_find?_eq_some hfound) h
  · intro h
    by_contra hne
    obtain ⟨word, hword, htruth⟩ := exists_of_truth_ne_nil hne
    exact h word hword (htruth ▸ truth_isPrefix cs)

theorem symbol_symbol (op : Operator) : symbol op.symbol.toList = op.symbol.toList := by
  cases op <;> decide +kernel

/-- A symbol is found just where that of some operator starts the text. -/
theorem symbol_eq_nil_iff {cs : List Char} :
    symbol cs = [] ↔ ∀ op : Operator, ¬ op.symbol.toList <+: cs := by
  have hlength (op : Operator) : op.symbol.toList.length = 1 ∨ op.symbol.toList.length = 2 := by
    cases op <;> decide
  constructor
  · intro h op hfront
    have hne : op.symbol.toList ≠ [] := by
      intro hnil
      have hsize := hlength op
      rw [hnil] at hsize
      simp at hsize
    have htake := List.prefix_iff_eq_take.mp hfront
    -- symbols of two characters are tried first
    by_cases htwo : (Operator.ofSymbol? (String.ofList (cs.take 2))).isSome
    · rw [symbol, if_pos htwo, List.take_eq_nil_iff] at h
      obtain rfl := h.resolve_left (by decide)
      exact hne (List.prefix_nil.mp hfront)
    · rcases hlength op with hsize | hsize
      · rw [hsize] at htake
        have hone := isSome_ofSymbol?_take_iff.mpr ⟨op, htake⟩
        rw [symbol, if_neg htwo, if_pos hone, ← htake] at h
        exact hne h
      · rw [hsize] at htake
        exact htwo (isSome_ofSymbol?_take_iff.mpr ⟨op, htake⟩)
  · intro h
    by_contra hne
    obtain ⟨op, hop⟩ := exists_of_symbol_ne_nil hne
    exact h op (hop ▸ symbol_isPrefix cs)

/-- **A symbol** ends where it did. -/
theorem symbol_stopsAs (h : StopsAs rest rest') (hne : piece ≠ [])
    (hpiece : symbol (piece ++ rest) = piece) : symbol (piece ++ rest') = piece := by
  rcases piece with _ | ⟨a, _ | ⟨b, cs⟩⟩
  · exact absurd rfl hne
  · -- the character behind the only one of the piece decides whether both are a symbol
    have hsingle : symbol [a] = [a] := by
      obtain ⟨op, hop⟩ := exists_of_symbol_ne_nil (by rwa [hpiece])
      rw [hpiece] at hop
      rw [← hop, symbol_symbol]
    cases rest' with
    | nil => exact hsingle
    | cons d behind =>
      rcases h d rfl with hblank | hsame
      · rw [symbol_append (by simp [isSeparator, hblank]) (List.cons_ne_nil a []), hsingle]
      · obtain ⟨others, rfl⟩ := List.head?_eq_some_iff.mp hsame
        exact hpiece
  · exact hpiece

/-! ### The first form that has a piece -/

/-- No piece starts where none of the forms has one. -/
theorem first_eq_nil_iff {cs : List Char} :
    first cs = [] ↔
      number cs = [] ∧ quotation cs = [] ∧ truth cs = [] ∧ symbol cs = [] ∧ group cs = [] := by
  have hforms : (∀ piece ∈ [number, quotation, truth, symbol, group].map (· cs), piece = []) ↔
      number cs = [] ∧ quotation cs = [] ∧ truth cs = [] ∧ symbol cs = [] ∧ group cs = [] := by
    simp
  rw [← hforms, first]
  -- the search finds the first form that has a piece, if one has
  cases hfound : ([number, quotation, truth, symbol, group].map (· cs)).find? (· ≠ []) with
  | none =>
    refine iff_of_true rfl fun piece hpiece => ?_
    simpa using List.find?_eq_none.mp hfound piece hpiece
  | some piece =>
    have hne : piece ≠ [] := by simpa using List.find?_some hfound
    exact iff_of_false hne fun hall => hne (hall piece (List.mem_of_find?_eq_some hfound))

/-- A symbol is the piece where no other form has one. -/
theorem first_eq_symbol {cs : List Char} (hnumber : number cs = []) (hquotation : quotation cs = [])
    (htruth : truth cs = []) (hgroup : group cs = []) : first cs = symbol cs := by
  by_cases h : symbol cs = []
  · rw [h, first_eq_nil_iff]
    exact ⟨hnumber, hquotation, htruth, h, hgroup⟩
  · simp [first, hnumber, hquotation, htruth, h]

/-- A number is found where a digit starts the text, with a minus sign in front of it or without. -/
theorem number_ne_nil_of_isDigit {d : Char} (hd : Digit.isDigit d = true) (cs : List Char) :
    number (d :: cs) ≠ [] ∧ number ('-' :: d :: cs) ≠ [] := by
  have hminus : d ≠ '-' := by
    rintro rfl
    cases hd
  constructor
  · rw [Ne, number_cons_eq_nil_iff hminus, hd]
    exact Bool.noConfusion
  · rw [Ne, number_minus_eq_nil_iff, unsigned_eq_nil_iff, List.takeWhile_cons_of_pos hd]
    exact List.cons_ne_nil d _

/-- **A piece stays the same** when what is behind it stops it as well. -/
theorem first_stopsAs (h : StopsAs rest rest') (hne : piece ≠ [])
    (hpiece : first (piece ++ rest) = piece) : first (piece ++ rest') = piece := by
  by_cases hnumber : number (piece ++ rest) = []
  · have hnumber' := number_eq_nil_stopsAs h hne hnumber
    have hform := hasForm_first (show first (piece ++ rest) ≠ [] by rwa [hpiece])
    rw [hpiece] at hform
    -- the form is visible at the start of the piece, and symbols alone look behind it
    cases hform with
    | unsigned hd => exact absurd hnumber (number_ne_nil_of_isDigit hd _).1
    | signed hd => exact absurd hnumber (number_ne_nil_of_isDigit hd _).2
    | quotation hinner =>
      rw [List.append_assoc]
      exact first_quotation_append hinner rest'
    | @truth word hword =>
      simp only [List.mem_cons, List.not_mem_nil, or_false] at hword
      rcases hword with rfl | rfl | rfl | rfl <;> rfl
    | symbol op =>
      have hquotation (cs : List Char) : quotation (op.symbol.toList ++ cs) = [] := by
        cases op <;> rfl
      have htruth (cs : List Char) : truth (op.symbol.toList ++ cs) = [] := by
        cases op <;> rfl
      have hgroup (cs : List Char) : group (op.symbol.toList ++ cs) = [] := by
        cases op <;> rfl
      rw [first_eq_symbol hnumber (hquotation _) (htruth _) (hgroup _)] at hpiece
      rw [first_eq_symbol hnumber' (hquotation _) (htruth _) (hgroup _),
        symbol_stopsAs h hne hpiece]
    | group hinner =>
      rw [List.append_assoc]
      exact first_group_append hinner rest'
  · rw [first_eq_number hnumber] at hpiece
    have hpiece' := number_stopsAs h hne hpiece
    rw [first_eq_number (by rwa [hpiece']), hpiece']

end RuleLang.Lexeme
