import RuleLang.Proofs.Acceptance
import RuleLang.Proofs.Seams
import RuleLang.Proofs.Simulation

/-!
# Expressions made of expressions

An expression between parentheses has the value of the expression, and two groups with an operator
between them have what the operator makes of the two values (`evaluate_composed`). This is so at
each stage, whatever the expressions are.

* The text of a group has the pieces of the expression between those of the parentheses
  (`pieces_group`). What follows the expression must not close a mark that it leaves open. A
  closing parenthesis alone does not, so one group, or the last of several, may hold any expression.
  In the group on the left every mark has to be covered, for the other group might close it.
* The pieces are read as before (`readPieces?_group`): a sign may stand at the start of a group as
  at the start of an expression.
* The tokens translate as before (`Lexed.translates_group`), even those that are no sentence, and a
  group binds tighter than every operator.
-/

namespace RuleLang

/-! ### Groups and what stands between them -/

/-- **A group** is read as its parentheses around what is inside it, whatever comes before. -/
theorem readPieces?_group {pieces : List (List Char)} {tokens : List Value}
    (h : readPieces? none pieces = some tokens) (previous : Option Value) :
    readPieces? previous (['('] :: pieces ++ [[')']]) = some (parenthesized tokens) := by
  have hopening : readPieces? previous [['(']] = some [.operator .leftParen] :=
    readPieces?_cons.mpr ⟨_, [], readPiece?_symbol previous .leftParen, rfl, rfl⟩
  have hclosing (previous : Option Value) :
      readPieces? previous [[')']] = some [.operator .rightParen] :=
    readPieces?_cons.mpr ⟨_, [], readPiece?_symbol previous .rightParen, rfl, rfl⟩
  -- behind an opening parenthesis as at the start a minus sign is a sign
  have hsign : acceptsSign (some (.operator .leftParen)) = acceptsSign none := rfl
  have hinner : readPieces? (some (.operator .leftParen)) pieces = some tokens := by
    rwa [readPieces?_congr hsign]
  exact readPieces?_append (readPieces?_append hopening hinner) (hclosing _)

/-! ### From the text -/

/-- A group has the pieces of what is inside it between those of its parentheses, if no piece
reaches over its end. -/
theorem pieces_group {cs rest : List Char}
    (hseam : pieces (cs ++ ')' :: rest) = pieces cs ++ pieces (')' :: rest)) :
    pieces ('(' :: (cs ++ ')' :: rest)) = ['('] :: pieces cs ++ [[')']] ++ pieces rest := by
  rw [pieces_paren (Or.inl rfl), hseam, pieces_paren (Or.inr rfl)]
  simp

/-- A group at the end of a text has the pieces of any expression inside it. -/
theorem pieces_last_group (cs : List Char) :
    pieces ('(' :: (cs ++ [')'])) = ['('] :: pieces cs ++ [[')']] := by
  have hseam : pieces (cs ++ [')']) = pieces cs ++ pieces [')'] :=
    pieces_append_of_not_mem rfl (by decide) (by decide) cs
  rw [pieces_group hseam, pieces_nil, List.append_nil]

theorem toList_group (expression : String) :
    ("(" ++ expression ++ ")").toList = '(' :: (expression.toList ++ [')']) := by
  simp [String.toList_append]

/-- The tokens of a group are those of the expression inside it, and its parentheses. -/
theorem tokenize_group {expression : String} {tokens : List Value}
    (h : (tokenize expression).outcome = .ok tokens) :
    (tokenize ("(" ++ expression ++ ")")).outcome = .ok (parenthesized tokens) := by
  obtain ⟨-, hread, hmatched⟩ := tokenize_eq_ok_iff.mp h
  refine tokenize_eq_ok_iff.mpr ⟨?_, ?_, foldlM_depthAfter?_parenthesized hmatched 0⟩
  · rw [toList_group]
    rfl
  · -- nothing stands behind the group, so a mark left open inside it stays open
    change readPieces? none (pieces ("(" ++ expression ++ ")").toList) = _
    rw [toList_group, pieces_last_group]
    exact readPieces?_group hread none

/-- The tokens of two groups with an operator between them. -/
theorem tokenize_application {op : Operator} (hop : op.isParen = false) {left right : String}
    (hmarks : Lexeme.MarksCovered 0 left.toList) {tokens tokens' : List Value}
    (hleft : (tokenize left).outcome = .ok tokens)
    (hright : (tokenize right).outcome = .ok tokens') :
    (tokenize ("(" ++ left ++ ")" ++ op.symbol ++ "(" ++ right ++ ")")).outcome
      = .ok (parenthesized tokens ++ .operator op :: parenthesized tokens') := by
  obtain ⟨-, hreadLeft, hmatchedLeft⟩ := tokenize_eq_ok_iff.mp hleft
  obtain ⟨-, hreadRight, hmatchedRight⟩ := tokenize_eq_ok_iff.mp hright
  have htext : ("(" ++ left ++ ")" ++ op.symbol ++ "(" ++ right ++ ")").toList
      = '(' :: (left.toList ++ ')' :: (op.symbol.toList ++ '(' :: (right.toList ++ [')']))) := by
    simp [String.toList_append]
  refine tokenize_eq_ok_iff.mpr ⟨?_, ?_, ?_⟩
  · rw [htext]
    rfl
  · -- behind the first group there may be quotes and brackets
    have hseam := pieces_append_of_marksCovered (c := ')') rfl hmarks
      (op.symbol.toList ++ '(' :: (right.toList ++ [')']))
    have hsymbol : op.symbol.toList ≠ [] := by
      cases op <;> decide
    change readPieces? none (pieces _) = _
    rw [htext, pieces_group hseam, pieces_whole_append rfl (Lexeme.first_symbol op) hsymbol,
      pieces_last_group]
    -- behind a closing parenthesis the operator is read as such, also if it is a minus sign
    have hlast := readPieces?_cons.mpr
      ⟨_, _, readPiece?_symbol (some (.operator .rightParen)) op,
        readPieces?_group hreadRight (some (.operator op)), rfl⟩
    refine readPieces?_append (readPieces?_group hreadLeft none) ?_
    rw [parenthesized, List.getLast?_concat]
    exact hlast
  · exact foldlM_depthAfter?_application hop (foldlM_depthAfter?_parenthesized hmatchedLeft 0)
      (foldlM_depthAfter?_parenthesized hmatchedRight 0)

/-! ### The tree and its value -/

theorem Expr.toPostfix_ne_nil (expr : Expr) : expr.toPostfix ≠ [] := by
  cases expr <;> simp [toPostfix]

/-- A group translates as what is inside it, and binds tighter than every operator. -/
theorem Lexed.translates_group {tokens : List Value} {expr : Expr} (h : Lexed tokens)
    (hparse : (parse tokens).outcome = .ok expr) :
    Translates 6 (parenthesized tokens) expr.toPostfix := by
  have hinner := (h.parse_eq_ok_iff.mp hparse).2
  refine .group .nothing hinner ?_
  rintro rfl
  exact expr.toPostfix_ne_nil (List.subset_nil.mp hinner.subset)

/-- **The value of an expression made of expressions.** On either engine a group has the value of
what is inside it, and an application to two groups ends as the operator does on their two values,
in the same value or the same error. -/
theorem evaluate_composed (engine : Engine) :
    (∀ expression value, (evaluate engine expression).outcome = .ok value →
      (evaluate engine ("(" ++ expression ++ ")")).outcome = .ok value) ∧
    ∀ op left right a b, op.isParen = false → Lexeme.MarksCovered 0 left.toList →
      (evaluate engine left).outcome = .ok a → (evaluate engine right).outcome = .ok b →
      (evaluate engine ("(" ++ left ++ ")" ++ op.symbol ++ "(" ++ right ++ ")")).outcome
        = (apply op a b).outcome := by
  refine ⟨fun expression value h => ?_, fun op left right a b hop hmarks hleft hright => ?_⟩
  · -- a group has the tree of what is inside it, and so its value on either engine
    obtain ⟨tokens, expr, htokens, hparse, hvalue⟩ := exists_parse_of_evaluate h
    have hlexed := lexed_of_tokenize htokens
    have hwell := (hlexed.parse_eq_ok_iff.mp hparse).1
    have htranslates := (hlexed.translates_group hparse).mono (by omega : 1 ≤ 6)
    rw [outcome_evaluate_of_parse (tokenize_group htokens) (parse_of_translates hwell htranslates)]
    exact hvalue
  · obtain ⟨tokens, l, htokens, hparse, hl⟩ := exists_parse_of_evaluate hleft
    obtain ⟨tokens', r, htokens', hparse', hr⟩ := exists_parse_of_evaluate hright
    have hlexed := lexed_of_tokenize htokens
    have hlexed' := lexed_of_tokenize htokens'
    have hwell : (Expr.binary op l r).WellFormed :=
      ⟨hop, (hlexed.parse_eq_ok_iff.mp hparse).1, (hlexed'.parse_eq_ok_iff.mp hparse').1⟩
    -- two groups are operands for every precedence
    have hprec := op.precedence_le
    have hlayer := (hlexed.translates_group hparse).mono (by omega : op.precedence ≤ 6)
    have hlayer' := (hlexed'.translates_group hparse').mono (by omega : op.precedence + 1 ≤ 6)
    have htranslates := (hlayer.application hop rfl hlayer').mono (Operator.precedence_pos hop)
    rw [outcome_evaluate_of_parse (tokenize_application hop hmarks htokens htokens')
      (parse_of_translates hwell htranslates), Expr.eval_binary, Logged.outcome_bind]
    -- both parts have values, so the application is reached
    rw [Expr.HasValue] at hl hr
    rw [hl]
    change (r.eval >>= fun b => apply op a b).outcome = _
    rw [Logged.outcome_bind, hr]
    rfl

/-- Both groups hold characters that belong to no token, and the one on the right an open quote. -/
theorem evaluate_composed_array_and_string :
    (evaluate .stack "(\"b\" \")").outcome = .ok (.string "b") ∧
    (evaluate .stack "([\"a\",\"b\"] $)##(\"b\" \")").outcome = .ok (.boolean true) := by
  have hmarks : Lexeme.MarksCovered 0 "[\"a\",\"b\"] $".toList := by decide +kernel
  have hleft : (evaluate .stack "[\"a\",\"b\"] $").outcome
      = .ok (.stringArray "[\"a\",\"b\"]") := by
    decide +kernel
  have hright : (evaluate .stack "\"b\" \"").outcome = .ok (.string "b") := by decide +kernel
  obtain ⟨hgroup, happlication⟩ := evaluate_composed .stack
  have hcontains : (apply .contains (.stringArray "[\"a\",\"b\"]") (.string "b")).outcome
      = .ok (.boolean true) := by
    decide +kernel
  have hgrouped := hgroup _ _ hright
  have happlied := happlication .contains _ _ _ _ rfl hmarks hleft hright
  have htext : "(" ++ "\"b\" \"" ++ ")" = "(\"b\" \")" := by decide +kernel
  have htexts : "(" ++ "[\"a\",\"b\"] $" ++ ")" ++ Operator.contains.symbol
      ++ "(" ++ "\"b\" \"" ++ ")" = "([\"a\",\"b\"] $)##(\"b\" \")" := by
    decide +kernel
  rw [htext] at hgrouped
  rw [htexts] at happlied
  exact ⟨hgrouped, happlied.trans hcontains⟩

end RuleLang
