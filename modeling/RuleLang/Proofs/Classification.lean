import RuleLang.Proofs.ArrayText
import RuleLang.Proofs.MomentText
import RuleLang.Proofs.NumeralText
import RuleLang.Value.Classify

/-!
# Classification, form by form

What a text has to be to be classified as a value (`Value.ClassifiedAs`), read off the order in
which the forms are tried (`classifiedAs_classify`), and back from a value to its literal. Symbols,
quoted texts, truth values, numerals and string arrays have no text in common, so a literal is
classified as what it is a literal of, although other forms are tried before its own
(`classify_quoted`, `classify_boolean`, `classify_digits`, `classify_stringArray`).

So a value that a text was classified as is read back from its literal
(`classify_literal_classify`). For most values the literal is the very text that was classified
(`ClassifiedAs.literal_eq`). Only truth values and numbers are written in one way and read in
several.
-/

namespace RuleLang

/-- A text in quotes is one that starts and ends with a quote, and these are two. -/
theorem unquote?_eq_some_iff {cs inner : List Char} :
    unquote? cs = some inner ↔ cs = '"' :: inner ++ ['"'] := by
  constructor
  · intro h
    unfold unquote? at h
    split at h
    · rename_i cs
      split at h
      · rename_i hlast
        obtain ⟨ds, rfl⟩ := List.getLast?_eq_some_iff.mp hlast
        rw [← Option.some.inj h, List.dropLast_concat, List.cons_append]
      · cases h
    · cases h
  · rintro rfl
    have hlast : (inner ++ ['"']).getLast? = some '"' := List.getLast?_concat
    change (if (inner ++ ['"']).getLast? = some '"' then some (inner ++ ['"']).dropLast
      else none) = _
    rw [if_pos hlast, List.dropLast_concat]

namespace Value

/-- **What a text is classified as**, with what it has to be for that. -/
inductive ClassifiedAs (text : String) : Value → Prop where
  | operator {op : Operator} (hsymbol : op.symbol = text) : ClassifiedAs text (.operator op)
  | datetime {inner : List Char} {m : Moment} (hquoted : text.toList = '"' :: inner ++ ['"'])
      (hmoment : Moment.read? inner = some m) :
      ClassifiedAs text (.datetime (String.ofList inner) m)
  | string {inner : List Char} (hquoted : text.toList = '"' :: inner ++ ['"'])
      (hmoment : Moment.read? inner = none) : ClassifiedAs text (.string (String.ofList inner))
  | boolean {b : Bool} (hword : boolean? text = some b) : ClassifiedAs text (.boolean b)
  | number {n : Numeral} {d : Decimal} (hnumeral : Numeral.read? text.toList = some n)
      (hd : Decimal.ofNumeral? n = some d) : ClassifiedAs text (.number d)
  | stringArray (hshape : StringArray.hasShape text.toList = true) :
      ClassifiedAs text (.stringArray text)
  | unknown : ClassifiedAs text (.unknown text)

/-- What a text is classified as is settled by the first form that it has. -/
theorem classifiedAs_classify (text : String) : ClassifiedAs text (classify text) := by
  -- along the order in which the forms are tried
  unfold classify
  split
  · rename_i op _ hsymbol
    exact .operator (Operator.ofSymbol?_eq_some_iff.mp hsymbol)
  · rename_i value _ hliteral
    unfold ofLiteral? at hliteral
    dsimp only at hliteral
    split at hliteral
    · rename_i inner hunquote
      rw [← Option.some.inj hliteral, ofQuoted]
      split
      · exact .datetime (unquote?_eq_some_iff.mp hunquote) ‹_›
      · exact .string (unquote?_eq_some_iff.mp hunquote) ‹_›
    · rename_i b _ hword
      rw [← Option.some.inj hliteral]
      exact .boolean hword
    · rename_i n _ _ hnumeral
      obtain ⟨d, hd, rfl⟩ := Option.map_eq_some_iff.mp hliteral
      exact .number hnumeral hd
    · split at hliteral
      · rename_i hshape
        rw [← Option.some.inj hliteral]
        exact .stringArray hshape
      · cases hliteral
  · exact .unknown

/-! ### From the literal to the value -/

/-- A literal is classified as its value, unless it is the symbol of an operator. -/
theorem classify_of_ofLiteral? {text : String} {value : Value}
    (hsymbol : Operator.ofSymbol? text = none) (hliteral : ofLiteral? text = some value) :
    classify text = value := by
  rw [classify, hsymbol, hliteral]

/-- There are four words for truth values, and no other text is one. -/
theorem boolean?_eq_none {cs : List Char}
    (h : ∀ word ∈ ["True", "true", "False", "false"], word.toList ≠ cs) :
    boolean? (String.ofList cs) = none := by
  have hne : ∀ word ∈ ["True", "true", "False", "false"], String.ofList cs ≠ word := by
    rintro word hword rfl
    exact h _ hword String.toList_ofList
  simp only [List.forall_mem_cons] at hne
  obtain ⟨hTrue, htrue, hFalse, hfalse, -⟩ := hne
  rw [boolean?, if_neg (by simp [hTrue, htrue]), if_neg (by simp [hFalse, hfalse])]

/-- A text that starts as no symbol does is no symbol. -/
theorem ofSymbol?_eq_none_of_head {c : Char} (h : ∀ op : Operator, op.symbol.toList.head? ≠ some c)
    (cs : List Char) : Operator.ofSymbol? (String.ofList (c :: cs)) = none := by
  refine Lexeme.ofSymbol?_eq_none fun op hop => h op ?_
  rw [hop]
  rfl

/-- A text in quotes is a moment or a string. -/
theorem classify_quoted (inner : List Char) :
    classify (String.ofList ('"' :: inner ++ ['"'])) = ofQuoted inner := by
  have hsymbol := ofSymbol?_eq_none_of_head (c := '"') (fun op => by cases op <;> decide)
    (inner ++ ['"'])
  have hunquote : unquote? ('"' :: inner ++ ['"']) = some inner := unquote?_eq_some_iff.mpr rfl
  refine classify_of_ofLiteral? hsymbol ?_
  rw [ofLiteral?, String.toList_ofList, hunquote]

/-- The literal of a truth value is classified as this truth value. -/
theorem classify_boolean (b : Bool) : classify (boolean b).literal = .boolean b := by
  cases b <;> rfl

/-- A numeral is classified as the number that it denotes, if it is in range. -/
theorem classify_of_numeral {cs : List Char} {n : Numeral} (hnumeral : Numeral.read? cs = some n) :
    classify (String.ofList cs)
      = ((Decimal.ofNumeral? n).map number).getD (.unknown (String.ofList cs)) := by
  -- none of the forms that are tried before is that of a numeral
  have hsymbol : Operator.ofSymbol? (String.ofList cs) = none := by
    refine Lexeme.ofSymbol?_eq_none fun op hop => ?_
    have hnone : Numeral.read? op.symbol.toList = none := by cases op <;> decide
    rw [hop, hnumeral] at hnone
    cases hnone
  have hunquote : unquote? cs = none := by
    rw [Option.eq_none_iff_forall_ne_some]
    intro inner hinner
    rw [unquote?_eq_some_iff.mp hinner] at hnumeral
    cases hnumeral
  have hword : boolean? (String.ofList cs) = none := by
    refine boolean?_eq_none fun word hword hcs => ?_
    have hnone : ∀ word ∈ ["True", "true", "False", "false"],
        Numeral.read? word.toList = none := by decide
    rw [← hcs, hnone word hword] at hnumeral
    cases hnumeral
  have hliteral : ofLiteral? (String.ofList cs) = (Decimal.ofNumeral? n).map number := by
    rw [ofLiteral?, String.toList_ofList, hunquote, hword, hnumeral]
  rw [classify, hsymbol, hliteral]
  cases Decimal.ofNumeral? n <;> rfl

/-- A numeral in range is classified as its number. -/
theorem classify_numeral {cs : List Char} {n : Numeral} {d : Decimal}
    (hnumeral : Numeral.read? cs = some n) (hd : Decimal.ofNumeral? n = some d) :
    classify (String.ofList cs) = .number d := by
  rw [classify_of_numeral hnumeral, hd]
  rfl

/-- A text that starts with a bracket is a string array or is unknown. -/
theorem classify_bracket (cs : List Char) :
    classify (String.ofList ('[' :: cs)) =
      if StringArray.hasShape ('[' :: cs) then .stringArray (String.ofList ('[' :: cs))
      else .unknown (String.ofList ('[' :: cs)) := by
  -- no other form starts with a bracket
  have hsymbol := ofSymbol?_eq_none_of_head (c := '[') (fun op => by cases op <;> decide) cs
  have hunquote : unquote? ('[' :: cs) = none := rfl
  have hnumeral : Numeral.read? ('[' :: cs) = none := rfl
  have hword : boolean? (String.ofList ('[' :: cs)) = none := by
    refine boolean?_eq_none fun word hword hcs => ?_
    have hhead : ∀ word ∈ ["True", "true", "False", "false"], word.toList.head? ≠ some '[' := by
      decide
    exact hhead word hword (by rw [hcs]; rfl)
  rw [classify, hsymbol, ofLiteral?, String.toList_ofList, hunquote, hword, hnumeral]
  dsimp only
  cases StringArray.hasShape ('[' :: cs) <;> rfl

/-- A text with the shape of a string array is classified as one. -/
theorem classify_stringArray {cs : List Char} (h : StringArray.IsWritten cs) :
    classify (String.ofList cs) = .stringArray (String.ofList cs) := by
  have hshape := StringArray.hasShape_iff.mpr h
  obtain ⟨items, -, rfl⟩ := h
  exact (classify_bracket (items ++ [']'])).trans (if_pos hshape)

/-- A text that has none of the forms is unknown. -/
theorem classify_eq_unknown {cs : List Char} (hsymbol : ∀ op : Operator, op.symbol.toList ≠ cs)
    (hunquote : unquote? cs = none)
    (hword : ∀ word ∈ ["True", "true", "False", "false"], word.toList ≠ cs)
    (hnumeral : Numeral.read? cs = none) (hshape : StringArray.hasShape cs = false) :
    classify (String.ofList cs) = .unknown (String.ofList cs) := by
  -- each way to read the text is tried and fails
  rw [classify, Lexeme.ofSymbol?_eq_none hsymbol, ofLiteral?, String.toList_ofList, hunquote,
    boolean?_eq_none hword, hnumeral]
  dsimp only
  rw [hshape]
  rfl

/-- **The literal of a number** is classified as this number, with its scale. -/
theorem classify_digits (d : Decimal) : classify d.text = .number d := by
  obtain ⟨n, hnumeral, hd⟩ := d.exists_numeral_of_digits
  exact classify_numeral hnumeral hd

/-! ### From the text to the value and back -/

/-- The characters of a quoted text. -/
theorem toList_quoted (text : String) : (quoted text).toList = '"' :: text.toList ++ ['"'] := by
  simp [quoted, String.toList_append]

/-- Quoting undoes the removal of the quotes. -/
theorem quoted_ofList {text : String} {inner : List Char}
    (h : text.toList = '"' :: inner ++ ['"']) : quoted (String.ofList inner) = text := by
  rw [← String.toList_inj, toList_quoted, String.toList_ofList, h]

/-- A value is written as it was read, if its kind has one way of writing it. -/
theorem ClassifiedAs.literal_eq {text : String} {value : Value} (h : ClassifiedAs text value)
    (hboolean : value.kind ≠ .boolean) (hnumber : value.kind ≠ .number) : value.literal = text := by
  cases h with
  | operator hsymbol => exact hsymbol
  | datetime hquoted _ => exact quoted_ofList hquoted
  | string hquoted _ => exact quoted_ofList hquoted
  | boolean _ => exact absurd rfl hboolean
  | number _ _ => exact absurd rfl hnumber
  | stringArray _ => rfl
  | unknown => rfl

/-- **What a text is classified as is read back from its literal** as the same value, which has the
same text and the same literal again. The scale and the coefficient of a number are the same too,
however many zeros its numeral had in front and however many digits were rounded off: they are what
the digits of the literal show. -/
theorem classify_literal_classify (text : String) :
    classify (classify text).literal = classify text ∧
      ∀ d, classify text = .number d →
        ∃ n, Numeral.read? (classify text).literal.toList = some n ∧
          n.negative = decide (d.coefficient < 0) ∧ n.fraction.length = d.scale ∧
          Digit.value (n.whole ++ n.fraction) = d.coefficient.natAbs := by
  constructor
  · -- only truth values and numbers may have another literal than the text
    have hclassified := classifiedAs_classify text
    cases hvalue : classify text with
    | boolean b => exact classify_boolean b
    | number d => exact classify_digits d
    | _ =>
      rw [hvalue] at hclassified
      rw [hclassified.literal_eq (by simp [kind]) (by simp [kind]), hvalue]
  · intro d hd
    obtain ⟨n, hwhole, hdigits, hn⟩ := d.exists_numeral
    have hliteral : (classify text).literal.toList = d.digits := by
      rw [hd]
      exact String.toList_ofList
    rw [hliteral]
    exact ⟨n, Numeral.read?_eq_some_iff.mpr ⟨hwhole, hdigits⟩, hn⟩

/-- The last digit does not fit and is rounded up, the zeros in front are free. -/
example : (classify "-007.9228162514264337593543950336").literal
    = "-7.922816251426433759354395034" := by
  decide +kernel

end Value

end RuleLang
