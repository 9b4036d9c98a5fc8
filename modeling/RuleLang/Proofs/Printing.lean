import RuleLang.Proofs.Acceptance
import RuleLang.Proofs.Literals

/-!
# Expressions read back from their text

The text of an expression has parentheses around every operator with its operands, so it is read in
one way, and as the same expression (`tokenize_text`, `parse_infixTokens`). This holds of every
tree whose leaves can be tokens (`Expr.Printable`), and the trees of expressions are such trees
(`printable_of_parse`), even those of tokens that are no sentence.

Three things about the tokens of a tree (`Expr.infixTokens`) are each an induction on the tree.
Their literals are the pieces of the text, whatever separator comes behind it. Every leaf comes
behind an opening parenthesis or an operator, or first, so that its sign is one. And the tokens are
those of an operand or a group, which the layered grammar has anywhere.
-/

namespace RuleLang

namespace Expr

/-- The tokens of an expression, parentheses around every operator with its operands. -/
def infixTokens : Expr → List Value
  | literal value => [value]
  | binary op left right =>
    parenthesized (left.infixTokens ++ .operator op :: right.infixTokens)

/-- A tree whose leaves are operands that can be tokens. -/
def Printable : Expr → Prop
  | literal value => value.IsOperand ∧ value.IsLexical
  | binary op left right => op.isParen = false ∧ left.Printable ∧ right.Printable

variable {expr : Expr}

/-- A well-formed tree is printable if every value of its postfix order can be a token. -/
theorem printable_of_forall_mem (hwell : expr.WellFormed)
    (hlexical : ∀ value ∈ expr.toPostfix, value.IsLexical) : expr.Printable := by
  induction expr with
  | literal value =>
    have hvalue := hlexical value (List.mem_singleton_self value)
    exact ⟨⟨hwell, hvalue.kind_ne_unknown⟩, hvalue⟩
  | binary op left right ihl ihr =>
    obtain ⟨hop, hleft, hright⟩ := hwell
    rw [toPostfix, List.forall_mem_append, List.forall_mem_append] at hlexical
    exact ⟨hop, ihl hleft hlexical.1.1, ihr hright hlexical.1.2⟩

/-! ### The tokens of the text -/

/-- The tokens of a printable tree can be tokens of an expression. -/
theorem isLexical_infixTokens (h : expr.Printable) :
    ∀ token ∈ expr.infixTokens, token.IsLexical := by
  induction expr with
  | literal value =>
    rw [infixTokens, List.forall_mem_singleton]
    exact h.2
  | binary op left right ihl ihr =>
    obtain ⟨-, hleft, hright⟩ := h
    rw [infixTokens, parenthesized, List.forall_mem_append, List.forall_mem_cons,
      List.forall_mem_append, List.forall_mem_cons]
    exact ⟨⟨trivial, ihl hleft, trivial, ihr hright⟩, by simp [Value.IsLexical]⟩

/-- Every leaf comes first or behind an operator. -/
theorem signsFit_infixTokens (h : expr.Printable) {previous : Option Value}
    (hprevious : acceptsSign previous = true) : SignsFit previous expr.infixTokens := by
  induction expr generalizing previous with
  | literal value => exact ⟨fun _ => hprevious, trivial⟩
  | binary op left right ihl ihr =>
    obtain ⟨hop, hleft, hright⟩ := h
    have hopening : acceptsSign (some (.operator .leftParen)) = true := rfl
    have hoperator := acceptsSign_of_isParen_eq_false hop
    -- the left part stands behind the parenthesis, and the right part behind the operator
    have hinner : SignsFit (some (.operator .leftParen))
        (left.infixTokens ++ .operator op :: right.infixTokens) :=
      signsFit_append.mpr
        ⟨ihl hleft hopening, fun hnegative => absurd hnegative id, ihr hright hoperator⟩
    exact signsFit_append.mpr ⟨⟨fun hnegative => absurd hnegative id, hinner⟩,
      fun hnegative => absurd hnegative id, trivial⟩

/-- **The expression of the tokens** is the one they are made of. -/
theorem layered_infixTokens (h : expr.Printable) : Layered 6 expr.infixTokens expr := by
  induction expr with
  | literal value => exact .operand h.1
  | binary op left right ihl ihr =>
    obtain ⟨hop, hleft, hright⟩ := h
    -- operands and groups have the tightest layer, so they go on either side of any operator
    have hprecedence := op.precedence_le
    have hleft := (ihl hleft).mono (by omega : op.precedence ≤ 6)
    have hright := (ihr hright).mono (by omega : op.precedence + 1 ≤ 6)
    exact .group ((hleft.application hop rfl hright).mono (Operator.precedence_pos hop))

/-- The parentheses of a tree match, at any depth. -/
theorem matched_infixTokens (h : expr.Printable) (depth : Nat) :
    expr.infixTokens.foldlM depthAfter? depth = some depth := by
  induction expr generalizing depth with
  | literal value =>
    rw [infixTokens, List.foldlM_cons, depthAfter?_of_isParen_eq_false h.1.isParen_eq_false]
    rfl
  | binary op left right ihl ihr =>
    obtain ⟨hop, hleft, hright⟩ := h
    have hinner := foldlM_depthAfter?_application hop (ihl hleft 0) (ihr hright 0)
    exact foldlM_depthAfter?_parenthesized hinner depth

/-- The pieces of the text in front of a separator are the literals of the tokens. -/
theorem pieces_text_append (h : expr.Printable) {c : Char} (hc : isSeparator c = true)
    (rest : List Char) :
    pieces (expr.text.toList ++ c :: rest)
      = expr.infixTokens.map (·.literal.toList) ++ pieces (c :: rest) := by
  induction expr generalizing c rest with
  | literal value =>
    obtain ⟨hwhole, hne⟩ := h.2.first_literal
    exact pieces_whole_append hc hwhole hne rest
  | binary op left right ihl ihr =>
    obtain ⟨-, hleft, hright⟩ := h
    have htext : (binary op left right).text.toList ++ c :: rest
        = '(' :: (left.text.toList ++ ' ' :: (op.symbol.toList ++ ' ' ::
          (right.text.toList ++ ')' :: c :: rest))) := by
      simp [text, String.toList_append]
    have hsymbol : op.symbol.toList ≠ [] := by cases op <;> decide
    -- a separator stands behind each part, and the space behind an operand has no pieces
    rw [htext, pieces_paren (Or.inl rfl), ihl hleft rfl, pieces_blank rfl,
      pieces_whole_append rfl (Lexeme.first_symbol op) hsymbol, pieces_blank rfl,
      ihr hright rfl, pieces_paren (Or.inr rfl)]
    simp [infixTokens, parenthesized, Value.literal, Value.text, Operator.symbol]

theorem pieces_text (h : expr.Printable) :
    pieces expr.text.toList = expr.infixTokens.map (·.literal.toList) := by
  -- a space behind the text has no pieces of its own
  have hspace := pieces_text_append h (c := ' ') rfl []
  rwa [pieces_append_of_not_mem rfl (by decide) (by decide), pieces_blank rfl, pieces_nil,
    List.append_nil, List.append_nil] at hspace

theorem infixTokens_ne_nil (expr : Expr) : expr.infixTokens ≠ [] := by
  cases expr <;> simp [infixTokens, parenthesized]

/-- **The text of an expression** has the tokens of the expression. -/
theorem tokenize_text (h : expr.Printable) :
    (tokenize expr.text).outcome = .ok expr.infixTokens :=
  tokenize_of_pieces (pieces_text h) expr.infixTokens_ne_nil (isLexical_infixTokens h)
    (signsFit_infixTokens h rfl) (matched_infixTokens h 0)

/-- The tokens of a tree parse as the tree. -/
theorem parse_infixTokens (h : expr.Printable) : (parse expr.infixTokens).outcome = .ok expr :=
  ((layered_infixTokens h).mono (by omega)).parse

end Expr

/-- The trees of expressions have leaves that can be tokens. -/
theorem printable_of_parse {expression : String} {tokens : List Value} {expr : Expr}
    (htokens : (tokenize expression).outcome = .ok tokens)
    (hparse : (parse tokens).outcome = .ok expr) : expr.Printable := by
  have hlexed := lexed_of_tokenize htokens
  have hwritable := writable_of_tokenize htokens
  refine Expr.printable_of_forall_mem (hlexed.parse_eq_ok_iff.mp hparse).1 fun value hvalue => ?_
  exact hwritable.lexical value (hlexed.toPostfix_subset hparse hvalue)

/-- **The text of a parsed expression parses as the same expression**, and so has the same text. -/
theorem parse_tokenize_text {expression : String} {tokens : List Value} {expr : Expr}
    (htokens : (tokenize expression).outcome = .ok tokens)
    (hparse : (parse tokens).outcome = .ok expr) :
    ∃ tokens', (tokenize expr.text).outcome = .ok tokens' ∧ (parse tokens').outcome = .ok expr := by
  have hprintable := printable_of_parse htokens hparse
  exact ⟨expr.infixTokens, Expr.tokenize_text hprintable, Expr.parse_infixTokens hprintable⟩

/-- Signs and a subtraction, and in the group an operator behind its operands. -/
theorem parse_tokenize_text_of_misplaced :
    ∃ expr : Expr, expr.text = "(-2.50 - (-1 * 3))" ∧
      ∃ tokens, (tokenize "(-2.50 - (-1 * 3))").outcome = .ok tokens ∧
        (parse tokens).outcome = .ok expr := by
  have htokens : (tokenize "-2.50-(-1 3*)").outcome = .ok [.number ⟨-250, 2, by decide⟩,
      .operator .subtract, .operator .leftParen, .number ⟨-1, 0, by decide⟩,
      .number ⟨3, 0, by decide⟩, .operator .multiply, .operator .rightParen] := by
    decide +kernel
  have hparse := parse_tokenize_text htokens (by rfl : (parse _).outcome = .ok _)
  have htext : (Expr.binary .subtract (.literal (.number ⟨-250, 2, by decide⟩))
      (.binary .multiply (.literal (.number ⟨-1, 0, by decide⟩))
        (.literal (.number ⟨3, 0, by decide⟩)))).text = "(-2.50 - (-1 * 3))" := by
    decide +kernel
  rw [← htext]
  exact ⟨_, rfl, hparse⟩

end RuleLang
