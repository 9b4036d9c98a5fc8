import RuleLang.Proofs.KindInference
import RuleLang.Proofs.Printing

/-!
# Results are expressions

The literal of a result is an expression, and its value is the result (`evaluate_literal`). So a
result can be put back where an expression is wanted, and evaluating twice is evaluating once.

Whatever a result is, it is an operand that can be a token (`printable_of_evaluate`). Either it is a
leaf of the expression's tree, and then it is one of the tokens that the expression was read as,
with the text that was written; or an operator gave it, and then it is a truth value or a number.
Every number can be a token: a decimal is within the limits by its type, and its text is read back
digit for digit. The tree that is this one leaf is evaluated from its text like every other tree
whose leaves can be tokens (`evaluate_text`).
-/

namespace RuleLang

/-- On the text of a tree whose leaves can be tokens, each engine ends as the evaluation of the tree
does. -/
theorem evaluate_text {expr : Expr} (h : expr.Printable) (engine : Engine) :
    (evaluate engine expr.text).outcome = expr.eval.outcome :=
  outcome_evaluate_of_parse (Expr.tokenize_text h) (Expr.parse_infixTokens h) engine

/-- What an operator gives can be a token: it is a truth value or a number. -/
theorem Value.isLexical_of_kind {value : Value} {op : Operator} (h : value.kind = op.resultKind) :
    value.IsLexical := by
  have hkinds := op.resultKind_eq
  rw [← h] at hkinds
  cases value with
  | number d => trivial
  | boolean b => trivial
  | _ => rcases hkinds with hkind | hkind <;> cases hkind

/-- **A result** is an operand that can be a token. -/
theorem printable_of_evaluate {engine : Engine} {expression : String} {value : Value}
    (h : (evaluate engine expression).outcome = .ok value) : (Expr.literal value).Printable := by
  obtain ⟨tokens, expr, htokens, hparse, hvalue⟩ := exists_parse_of_evaluate h
  rcases hvalue.eq_literal_or_resultKind with rfl | ⟨op, hkind⟩
  · -- a leaf is what it was as a token
    exact printable_of_parse htokens hparse
  · have hoperand := hvalue.isOperand (lexed_of_tokenize htokens) hparse
    exact ⟨hoperand, Value.isLexical_of_kind hkind⟩

/-- **A result is the value of its literal.** The literal is a single token, the result itself, and
on either engine its value is the result again, so that the text of this value is the same too. -/
theorem evaluate_literal {engine : Engine} {expression : String} {value : Value}
    (h : (evaluate engine expression).outcome = .ok value) :
    (tokenize value.literal).outcome = .ok [value] ∧
      ∀ engine', (evaluate engine' value.literal).outcome = .ok value := by
  have hprintable := printable_of_evaluate h
  -- the literal of the value is the text of the tree that is this leaf
  have htext : (Expr.literal value).text = value.literal := rfl
  constructor
  · have htokens := Expr.tokenize_text hprintable
    rwa [htext] at htokens
  · intro engine'
    have hagain := evaluate_text hprintable engine'
    rw [htext] at hagain
    exact hagain

/-- The greatest coefficient, with a sign and a point. -/
theorem evaluate_literal_least_decimal :
    (tokenize "-7922816251426433759354395033.5").outcome
      = .ok [.number ⟨-79228162514264337593543950335, 1, by decide⟩] ∧
    (evaluate .stack "-7922816251426433759354395033.5").outcome
      = .ok (.number ⟨-79228162514264337593543950335, 1, by decide⟩) := by
  have hdifference : (evaluate .tree "0.5-7922816251426433759354395034").outcome
      = .ok (.number ⟨-79228162514264337593543950335, 1, by decide⟩) := by
    decide +kernel
  have hliteral : (Value.number ⟨-79228162514264337593543950335, 1, by decide⟩).literal
      = "-7922816251426433759354395033.5" := by
    decide +kernel
  obtain ⟨htokens, hvalue⟩ := evaluate_literal hdifference
  rw [hliteral] at htokens hvalue
  exact ⟨htokens, hvalue .stack⟩

end RuleLang
