import RuleLang.Proofs.JsonSpelling
import RuleLang.Proofs.Results

/-!
# Membership in string arrays

An array literal is a JSON spelling of its items in which no item shows a bracket: brackets are
escaped, since a bracketed group ends at the first one (`IsArrayLiteral`). Whatever the spelling,
the membership operators decide by the items (`membership_of_arrays`).

The text goes through four readers. The search for lexemes takes the literal for one group, and the
shape takes it for a string array, so it is a single token (`IsArrayLiteral.printable`). An operator
between two literals is applied to their values (`evaluate_between`). Only then are the items read,
and they are the ones that were spelled (`IsArrayLiteral.arrayItems`).

A quoted text on the right may be an item, unless it denotes a moment: it is no string then, and
membership is not defined for it.
-/

namespace RuleLang

/-! ### An operator between two literals -/

/-- **An operator between two literals** is applied to their values. -/
theorem evaluate_between {op : Operator} (hop : op.isParen = false) {a b : Value}
    (ha : (Expr.literal a).Printable) (hb : (Expr.literal b).Printable) (engine : Engine) :
    (evaluate engine (a.literal ++ " " ++ op.symbol ++ " " ++ b.literal)).outcome
      = combine op a b := by
  have htext : a.literal ++ " " ++ op.symbol ++ " " ++ b.literal
      = Value.literals " " [a, .operator op, b] := by
    rw [← String.toList_inj]
    simp [Value.literals, Value.literal, Value.text, String.toList_append]
  have hlexical : ∀ token ∈ [a, .operator op, b], token.IsLexical := by
    simp only [List.forall_mem_cons]
    exact ⟨ha.2, trivial, hb.2, fun _ h => absurd h List.not_mem_nil⟩
  -- the second literal stands behind an operator, so its minus sign is a sign
  have hsigns : SignsFit none [a, .operator op, b] :=
    ⟨fun _ => rfl, fun hnegative => absurd hnegative id,
      fun _ => acceptsSign_of_isParen_eq_false hop, trivial⟩
  have hmatched : ([a] ++ .operator op :: [b]).foldlM depthAfter? 0 = some 0 :=
    foldlM_depthAfter?_application hop (Expr.matched_infixTokens ha 0)
      (Expr.matched_infixTokens hb 0)
  have htokens := tokenize_of_pieces (pieces_literals hlexical) (List.cons_ne_nil _ _) hlexical
    hsigns hmatched
  -- the tree is the one of the layered grammar, in the layer of the operator
  have hparse : (parse [a, .operator op, b]).outcome
      = .ok (.binary op (.literal a) (.literal b)) := by
    have hprecedence := op.precedence_le
    have hleft := (Layered.operand ha.1).mono (by omega : op.precedence ≤ 6)
    have hright := (Layered.operand hb.1).mono (by omega : op.precedence + 1 ≤ 6)
    exact ((hleft.application hop rfl hright).mono (Operator.precedence_pos hop)).parse
  rw [htext, outcome_evaluate_of_parse htokens hparse, Expr.outcome_eval_binary]
  rfl

/-! ### Array literals -/

/-- **The text is an array literal** of the items: a JSON spelling of them that has no brackets but
the outer two. -/
def IsArrayLiteral (items : List String) (text : String) : Prop :=
  ∃ inner, Json.SpellsItems items inner ∧ ('[' ∉ inner ∧ ']' ∉ inner) ∧
    text.toList = '[' :: inner ++ [']']

namespace IsArrayLiteral

variable {items : List String} {text : String}

theorem spellsArray (h : IsArrayLiteral items text) : Json.SpellsArray items text.toList := by
  obtain ⟨inner, hinner, -, htext⟩ := h
  exact ⟨inner, hinner, htext⟩

/-- An array literal is a single token. -/
theorem printable (h : IsArrayLiteral items text) :
    (Expr.literal (.stringArray text)).Printable := by
  have hwritten := Json.isWritten_of_spellsArray h.spellsArray
  obtain ⟨inner, -, hbrackets, htext⟩ := h
  exact ⟨⟨by simp [Value.kind], by simp [Value.kind]⟩, hwritten, inner, htext, hbrackets⟩

/-- The items of an array literal are the ones that it spells. -/
theorem arrayItems (h : IsArrayLiteral items text) : arrayItems text = .ok items := by
  rw [RuleLang.arrayItems, Json.readStrings_of_spellsArray h.spellsArray]
  rfl

end IsArrayLiteral

/-! ### Quoted texts -/

/-- A quoted text that denotes no moment is a string, and a single token. -/
theorem printable_string {text : String} (hquote : '"' ∉ text.toList)
    (hmoment : ∀ m : Moment, ¬ m.WrittenAs text.toList) :
    (Expr.literal (.string text)).Printable := by
  have hread : Moment.read? text.toList = none := by
    rw [Option.eq_none_iff_forall_ne_some]
    intro m hm
    exact hmoment m (Moment.read?_eq_some_iff.mp hm)
  refine ⟨⟨by simp [Value.kind], by simp [Value.kind]⟩, hquote, ?_⟩
  rw [Value.classify_quoted_text, Value.ofQuoted, hread]
  simp [Value.kind]

theorem printable_datetime {text : String} {m : Moment} (h : m.WrittenAs text.toList) :
    (Expr.literal (.datetime text m)).Printable :=
  ⟨⟨by simp [Value.kind], by simp [Value.kind]⟩, h⟩

/-! ### What the operators decide -/

/-- The two operators decide the same, and one of them gives the opposite. -/
theorem combine_membership {a b : Value} {held : Bool} (h : contains? a b = .ok (some held)) :
    combine .contains a b = .ok (.boolean held) ∧
      combine .notContains a b = .ok (.boolean (!held)) := by
  rw [combine, combine, h]
  exact ⟨rfl, rfl⟩

variable {array : String} {xs : List String}

/-- An array holds a string that is one of its items. -/
theorem contains?_item (h : arrayItems array = .ok xs) (y : String) :
    contains? (.stringArray array) (.string y) = .ok (some (decide (y ∈ xs))) := by
  rw [contains?, h, ← List.contains_eq_mem]
  rfl

theorem contains?_items {wanted : String} {ys : List String} (h : arrayItems array = .ok xs)
    (hwanted : arrayItems wanted = .ok ys) :
    contains? (.stringArray array) (.stringArray wanted)
      = .ok (some (decide (∀ y ∈ ys, y ∈ xs))) := by
  have hall : ys.all xs.contains = decide (∀ y ∈ ys, y ∈ xs) := by
    rw [Bool.eq_iff_iff, List.all_eq_true, decide_eq_true_iff]
    simp only [List.contains_iff_mem]
  rw [contains?, h, hwanted, ← hall]
  rfl

/-- **Membership is that of the items.** For every spelling of an array as a literal, `##` holds of
the literal of another array when all items of this one are items of the first, and of a quoted
text when the text is an item. A text that denotes a moment is no string, and the operator is not
supported. On the same operands `!#` gives the opposite, or fails in the same way. -/
theorem membership_of_arrays (hxs : IsArrayLiteral xs array) (engine : Engine) :
    (∀ ys wanted, IsArrayLiteral ys wanted →
      (evaluate engine (array ++ " ## " ++ wanted)).outcome
        = .ok (.boolean (decide (∀ y ∈ ys, y ∈ xs))) ∧
      (evaluate engine (array ++ " !# " ++ wanted)).outcome
        = .ok (.boolean (!decide (∀ y ∈ ys, y ∈ xs)))) ∧
    ∀ y : String, '"' ∉ y.toList →
      ((∀ m : Moment, ¬ m.WrittenAs y.toList) →
        (evaluate engine (array ++ " ## " ++ Value.quoted y)).outcome
          = .ok (.boolean (decide (y ∈ xs))) ∧
        (evaluate engine (array ++ " !# " ++ Value.quoted y)).outcome
          = .ok (.boolean (!decide (y ∈ xs)))) ∧
      ∀ m : Moment, m.WrittenAs y.toList →
        (evaluate engine (array ++ " ## " ++ Value.quoted y)).outcome
          = .error (.unsupported .contains (.stringArray array) (.datetime y m)) ∧
        (evaluate engine (array ++ " !# " ++ Value.quoted y)).outcome
          = .error (.unsupported .notContains (.stringArray array) (.datetime y m)) := by
  have hcontains (right : String) : array ++ " ## " ++ right
      = array ++ " " ++ Operator.contains.symbol ++ " " ++ right := by
    rw [← String.toList_inj]
    simp [Operator.symbol, String.toList_append]
  have hnotContains (right : String) : array ++ " !# " ++ right
      = array ++ " " ++ Operator.notContains.symbol ++ " " ++ right := by
    rw [← String.toList_inj]
    simp [Operator.symbol, String.toList_append]
  have hitems := hxs.arrayItems
  -- on either side of the operator stands the literal of a single token
  have hevaluate {b : Value} (hb : (Expr.literal b).Printable) :
      (evaluate engine (array ++ " ## " ++ b.literal)).outcome
          = combine .contains (.stringArray array) b ∧
        (evaluate engine (array ++ " !# " ++ b.literal)).outcome
          = combine .notContains (.stringArray array) b := by
    rw [hcontains, hnotContains]
    exact ⟨evaluate_between rfl hxs.printable hb engine,
      evaluate_between rfl hxs.printable hb engine⟩
  refine ⟨fun ys wanted hys => ?_, fun y hquote => ⟨fun hmoment => ?_, fun m hm => ?_⟩⟩
  · obtain ⟨heval, heval'⟩ := hevaluate hys.printable
    obtain ⟨hheld, hheld'⟩ := combine_membership (contains?_items hitems hys.arrayItems)
    exact ⟨heval.trans hheld, heval'.trans hheld'⟩
  · obtain ⟨heval, heval'⟩ := hevaluate (printable_string hquote hmoment)
    obtain ⟨hheld, hheld'⟩ := combine_membership (contains?_item hitems y)
    exact ⟨heval.trans hheld, heval'.trans hheld'⟩
  · obtain ⟨heval, heval'⟩ := hevaluate (printable_datetime hm)
    -- the table of operands has no moments for membership
    have hkinds : (Kind.stringArray, Kind.datetime) ∉ Operator.contains.operandKinds := by decide
    exact ⟨heval.trans (combine_of_not_mem hkinds), heval'.trans (combine_of_not_mem hkinds)⟩

/-- The array spells `a["` with the bracket and the quote escaped, and a character above U+FFFF by
its two code units. The other array shows this character as it is. -/
theorem membership_of_escaped_items :
    (evaluate .stack "[\"a\\u005B\\\"\" ,\t\"\\uD83d\\uDE00\"] ## [\"😀\"]").outcome
      = .ok (.boolean true) ∧
    (evaluate .tree "[\"a\\u005B\\\"\" ,\t\"\\uD83d\\uDE00\"] !# \"a\"").outcome
      = .ok (.boolean true) := by
  have hbracket : Json.Spells "a[\"".toList "a\\u005B\\\"".toList := by
    have ha : Json.SpellsChar 'a' ['a'] := .plain (by decide) (by decide) (by decide)
    have hunit : Json.SpellsChar '[' ['\\', 'u', '0', '0', '5', 'B'] := .unit (by decide)
    have hquote : Json.SpellsChar '"' ['\\', '"'] := .short (by decide)
    exact .cons ha (.cons hunit (.cons hquote .nil))
  have hface : Json.Spells "😀".toList "\\uD83d\\uDE00".toList := by
    have hpair : Json.SpellsChar '😀' ('\\' :: 'u' :: (['D', '8', '3', 'd'] ++ '\\' :: 'u' ::
        ['D', 'E', '0', '0'])) :=
      .pair (by decide) (by decide) (by decide)
    exact .cons hpair .nil
  have harray : IsArrayLiteral ["a[\"", "😀"] "[\"a\\u005B\\\"\" ,\t\"\\uD83d\\uDE00\"]" := by
    have hitems : Json.SpellsItems ["a[\"", "😀"] "\"a\\u005B\\\"\" ,\t\"\\uD83d\\uDE00\"".toList :=
      @Json.SpellsItems.cons _ _ [] _ [' '] _ rfl hbracket rfl
        (@Json.SpellsItems.last _ ['\t'] _ [] rfl hface rfl)
    exact ⟨_, hitems, by decide, by decide⟩
  have hwanted : IsArrayLiteral ["😀"] "[\"😀\"]" := by
    have hplain : Json.SpellsChar '😀' ['😀'] := .plain (by decide) (by decide) (by decide)
    have hitems : Json.SpellsItems ["😀"] "\"😀\"".toList :=
      @Json.SpellsItems.last "😀" [] ['😀'] [] rfl (.cons hplain .nil) rfl
    exact ⟨_, hitems, by decide, by decide⟩
  have hmoment : ∀ m : Moment, ¬ m.WrittenAs "a".toList := by
    intro m hm
    have hread := Moment.read?_eq_some_iff.mpr hm
    cases hread
  have harrays := (membership_of_arrays harray .stack).1 _ _ hwanted
  have hitem := ((membership_of_arrays harray .tree).2 "a" (by decide)).1 hmoment
  exact ⟨harrays.1, hitem.2⟩

end RuleLang
