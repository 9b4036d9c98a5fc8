import RuleLang.Proofs.Postorder

/-!
# The infix grammar

Which tokens make an infix expression, and which tree they make. There are two grammars.

* `Sentence` has one rule for operators and leaves open how a row of them is read: a sentence is an
  operand, a sentence between parentheses, or two sentences with an operator between them.
* `Layered` settles that. It has a layer for each precedence from 1 to 5 and a sixth for operands
  and groups. An operator of a layer has an expression of its own layer to the left and one of the
  next tighter layer to the right, so that operators of equal precedence group to the left.

The two have the same sentences (`sentence_iff_layered`). The one direction is plain. For the other,
an operator and an operand behind a layered expression are put into it where the layer of the
operator is, on its right edge (`Layered.append`).

A third grammar, `Translates`, is the layered one with operands side by side allowed. It gives the
tokens in postfix order, and it need not be that of a tree.
-/

namespace RuleLang

/-- Whether a value can stand as an operand. -/
def Value.IsOperand (value : Value) : Prop :=
  value.kind ≠ .operator ∧ value.kind ≠ .unknown

instance (value : Value) : Decidable value.IsOperand :=
  inferInstanceAs (Decidable (_ ∧ _))

/-- Whether a value is a parenthesis. -/
def Value.isParen : Value → Bool
  | .operator op => op.isParen
  | _ => false

/-- Tokens between parentheses. -/
def parenthesized (tokens : List Value) : List Value :=
  .operator .leftParen :: tokens ++ [.operator .rightParen]

/-- **The infix grammar.** -/
inductive Sentence : List Value → Prop where
  | operand {value : Value} (hvalue : value.IsOperand) : Sentence [value]
  | group {tokens : List Value} (htokens : Sentence tokens) : Sentence (parenthesized tokens)
  | application {left right : List Value} {op : Operator} (hleft : Sentence left)
      (hop : op.isParen = false) (hright : Sentence right) :
      Sentence (left ++ .operator op :: right)

/-- **The layered grammar**, with the tree of a sentence. Layers 1 to 5 are those of the operators
of these precedences, and layer 6 is that of operands and groups. -/
inductive Layered : Nat → List Value → Expr → Prop where
  | operand {value : Value} (hvalue : value.IsOperand) : Layered 6 [value] (.literal value)
  | group {tokens : List Value} {expr : Expr} (htokens : Layered 1 tokens expr) :
      Layered 6 (parenthesized tokens) expr
  | tighter {layer : Nat} {tokens : List Value} {expr : Expr}
      (htokens : Layered (layer + 1) tokens expr) : Layered layer tokens expr
  | application {layer : Nat} {left right : List Value} {op : Operator} {l r : Expr}
      (hleft : Layered layer left l) (hop : op.isParen = false) (hlayer : op.precedence = layer)
      (hright : Layered (layer + 1) right r) :
      Layered layer (left ++ .operator op :: right) (.binary op l r)

/-- The tokens of an expression in postfix order, in the layered grammar but with any number of
operands and groups, none included, where it has one. -/
inductive Translates : Nat → List Value → List Value → Prop where
  | nothing : Translates 6 [] []
  | operand {tokens values : List Value} {value : Value} (htokens : Translates 6 tokens values)
      (hvalue : value.IsOperand) : Translates 6 (tokens ++ [value]) (values ++ [value])
  | group {tokens inner values values' : List Value} (htokens : Translates 6 tokens values)
      (hinner : Translates 1 inner values') (hne : inner ≠ []) :
      Translates 6 (tokens ++ parenthesized inner) (values ++ values')
  | tighter {layer : Nat} {tokens values : List Value}
      (htokens : Translates (layer + 1) tokens values) : Translates layer tokens values
  | application {layer : Nat} {left right values values' : List Value} {op : Operator}
      (hleft : Translates layer left values) (hop : op.isParen = false)
      (hlayer : op.precedence = layer) (hright : Translates (layer + 1) right values') :
      Translates layer (left ++ .operator op :: right) (values ++ values' ++ [.operator op])

/-- The leaves and the operators of a tree in infix order, without parentheses. -/
def Expr.infixOrder : Expr → List Value
  | literal value => [value]
  | binary op left right => left.infixOrder ++ .operator op :: right.infixOrder

namespace Operator

/-- No operator binds more tightly than layer 5. -/
theorem precedence_le (op : Operator) : op.precedence ≤ 5 := by
  cases op <;> decide

theorem precedence_pos {op : Operator} (h : op.isParen = false) : 1 ≤ op.precedence := by
  revert h
  cases op <;> decide

end Operator

namespace Value

/-- There are two parentheses. -/
theorem isParen_eq_true_iff {value : Value} :
    value.isParen = true ↔ value = .operator .leftParen ∨ value = .operator .rightParen := by
  constructor
  · intro h
    cases value with
    | operator op =>
      cases op with
      | leftParen => exact Or.inl rfl
      | rightParen => exact Or.inr rfl
      | _ => cases h
    | _ => cases h
  · rintro (rfl | rfl) <;> rfl

/-- A parenthesis is no operand. -/
theorem IsOperand.isParen_eq_false {value : Value} (h : value.IsOperand) :
    value.isParen = false := by
  cases value with
  | operator op => exact absurd rfl h.1
  | _ => rfl

/-- A token of known kind that is no parenthesis is an operand or an operator that is applied. -/
theorem isOperand_or_operator {value : Value} (hparen : value.isParen = false)
    (hknown : value.kind ≠ .unknown) :
    value.IsOperand ∨ ∃ op, value = .operator op ∧ op.isParen = false := by
  by_cases hkind : value.kind = .operator
  · obtain ⟨op, rfl⟩ := kind_eq_operator_iff.mp hkind
    exact Or.inr ⟨op, rfl, hparen⟩
  · exact Or.inl ⟨hkind, hknown⟩

end Value

theorem Sentence.ne_nil {tokens : List Value} (h : Sentence tokens) : tokens ≠ [] := by
  cases h <;> simp [parenthesized]

/-! ### Layers -/

namespace Layered

theorem mono {layer layer' : Nat} {tokens : List Value} {expr : Expr} (hlayer : layer ≤ layer')
    (h : Layered layer' tokens expr) : Layered layer tokens expr := by
  induction hlayer with
  | refl => exact h
  | step _ ih => exact ih h.tighter

/-- **An operator and an operand behind an expression** make an expression with it. They go to the
right edge, below the operators that bind less tightly and above all others. -/
theorem append {layer : Nat} {left right : List Value} {l r : Expr} {op : Operator}
    (hleft : Layered layer left l) (hop : op.isParen = false) (hlayer : layer ≤ op.precedence)
    (hright : Layered 6 right r) :
    ∃ expr, Layered layer (left ++ .operator op :: right) expr := by
  have hprec := op.precedence_le
  -- an operator of this very layer takes the whole expression as its left part; a tighter one goes
  -- into the right part, which the induction covers
  have hsame : ∀ {layer tokens expr}, Layered layer tokens expr → op.precedence = layer →
      ∃ expr', Layered layer (tokens ++ .operator op :: right) expr' := by
    intro layer tokens expr h heq
    exact ⟨_, .application h hop heq (hright.mono (by omega))⟩
  induction hleft with
  | operand _ => omega
  | group _ _ => omega
  | tighter htokens ih =>
    rcases Nat.lt_or_eq_of_le hlayer with hlt | heq
    · obtain ⟨expr, hexpr⟩ := ih hlt
      exact ⟨expr, hexpr.tighter⟩
    · exact hsame htokens.tighter heq.symm
  | @application layer left' right' op' l' r' hleft' hop' hlayer' hright' _ ih =>
    rcases Nat.lt_or_eq_of_le hlayer with hlt | heq
    · obtain ⟨expr, hexpr⟩ := ih hlt
      refine ⟨.binary op' l' expr, ?_⟩
      rw [List.append_assoc, List.cons_append]
      exact .application hleft' hop' hlayer' hexpr
    · exact hsame (.application hleft' hop' hlayer' hright') heq.symm

/-- A layered expression is a sentence. -/
theorem sentence {layer : Nat} {tokens : List Value} {expr : Expr}
    (h : Layered layer tokens expr) : Sentence tokens := by
  induction h with
  | operand hvalue => exact .operand hvalue
  | group _ ih => exact .group ih
  | tighter _ ih => exact ih
  | application _ hop _ _ ihl ihr => exact .application ihl hop ihr

/-- The tree of a layered expression is well-formed. -/
theorem wellFormed {layer : Nat} {tokens : List Value} {expr : Expr}
    (h : Layered layer tokens expr) : expr.WellFormed := by
  induction h with
  | operand hvalue => exact hvalue.1
  | group _ ih => exact ih
  | tighter _ ih => exact ih
  | application _ hop _ _ ihl ihr => exact ⟨hop, ihl, ihr⟩

/-- The layered grammar is part of the one that lets operands stand side by side. -/
theorem translates {layer : Nat} {tokens : List Value} {expr : Expr}
    (h : Layered layer tokens expr) : Translates layer tokens expr.toPostfix := by
  induction h with
  | operand hvalue => exact .operand .nothing hvalue
  | group htokens ih =>
    -- nothing stands in front of the group, since no operands stand side by side here
    exact .group .nothing ih htokens.sentence.ne_nil
  | tighter _ ih => exact .tighter ih
  | application _ hop hlayer _ ihl ihr => exact .application ihl hop hlayer ihr

end Layered

end RuleLang
