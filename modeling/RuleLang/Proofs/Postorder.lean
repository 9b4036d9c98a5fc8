import RuleLang.Expr
import RuleLang.Proofs.Outcome

/-!
# Trees and their postfix order

Building a tree from postfix order undoes flattening it, and the other way round
(`Expr.ofPostfix_eq_ok_iff`). The trees concerned are the *well-formed* ones: no leaf is an operator
and no node is a parenthesis.

Both directions are about the stack in the middle of a sequence, not about its end. Flattening a
tree and reading the result puts that one tree on whatever stack there was (`Expr.foldlM_push`).
Conversely the stack always spells what has been read: flattened from the bottom to the top it is
the sequence so far (`Expr.spell_of_foldlM_push`).
-/

namespace RuleLang

/-- The values of kind operator are the operators. -/
theorem Value.kind_eq_operator_iff {value : Value} :
    value.kind = .operator ↔ ∃ op, value = .operator op := by
  cases value <;> simp [kind]

/-- What a value of a postfix order is and finds on the stack, whatever the stack is of: an operand,
which needs nothing; a parenthesis, which has no place there; an operator with less than two items
to apply to; an operator with its two operands. -/
inductive Finds {α : Type} : List α → Value → Prop where
  | operand {stack : List α} {value : Value} (hvalue : value.kind ≠ .operator) : Finds stack value
  | paren {stack : List α} {op : Operator} (hop : op.isParen = true) : Finds stack (.operator op)
  | missing {stack : List α} {op : Operator} (hop : op.isParen = false)
      (hstack : stack.length < 2) : Finds stack (.operator op)
  | operands {right left : α} {below : List α} {op : Operator} (hop : op.isParen = false) :
      Finds (right :: left :: below) (.operator op)

/-- Every value finds one of the four on every stack. -/
theorem finds {α : Type} (stack : List α) (value : Value) : Finds stack value := by
  by_cases hvalue : value.kind = .operator
  · obtain ⟨op, rfl⟩ := Value.kind_eq_operator_iff.mp hvalue
    cases hop : op.isParen with
    | true => exact .paren hop
    | false =>
      rcases stack with _ | ⟨right, _ | ⟨left, below⟩⟩
      · exact .missing hop (by simp)
      · exact .missing hop (by simp)
      · exact .operands hop
  · exact .operand hvalue

namespace Expr

/-- No leaf is an operator, and no node is a parenthesis. -/
def WellFormed : Expr → Prop
  | literal value => value.kind ≠ .operator
  | binary op left right => op.isParen = false ∧ left.WellFormed ∧ right.WellFormed

/-- The trees of a stack in postfix order, the latest tree last. -/
def spell : List Expr → List Value
  | [] => []
  | expr :: stack => spell stack ++ expr.toPostfix

/-! ### One value -/

theorem push_operand {value : Value} (h : value.kind ≠ .operator) (stack : List Expr) :
    push stack value = .ok (literal value :: stack) := by
  cases value with
  | operator op => exact absurd rfl h
  | _ => rfl

/-- An operator joins the two latest trees, the latest of them to its right. -/
theorem push_operator {op : Operator} (h : op.isParen = false) (left right : Expr)
    (stack : List Expr) :
    push (right :: left :: stack) (.operator op) = .ok (binary op left right :: stack) := by
  rw [push, h]
  rfl

theorem push_paren {op : Operator} (h : op.isParen = true) (stack : List Expr) :
    push stack (.operator op) = .error (.malformed .parenthesisInPostfix) :=
  if_pos h

/-- An operator has to find two trees. -/
theorem push_operator_of_length_lt {op : Operator} (h : op.isParen = false) {stack : List Expr}
    (hstack : stack.length < 2) :
    push stack (.operator op) = .error (.malformed (.missingNear op)) := by
  rcases stack with _ | ⟨right, _ | ⟨left, below⟩⟩
  · exact if_neg (by simp [h])
  · exact if_neg (by simp [h])
  · simp only [List.length_cons] at hstack
    omega

/-- A value either goes on the stack as a leaf, or is an operator that joins the two latest
trees. -/
theorem push_eq_ok_iff {stack stack' : List Expr} {value : Value} :
    push stack value = .ok stack' ↔
      (value.kind ≠ .operator ∧ stack' = literal value :: stack) ∨
      ∃ op right left below, value = .operator op ∧ op.isParen = false ∧
        stack = right :: left :: below ∧ stack' = binary op left right :: below := by
  constructor
  · intro h
    cases finds stack value with
    | operand hvalue =>
      rw [push_operand hvalue] at h
      exact Or.inl ⟨hvalue, (Except.ok.inj h).symm⟩
    | paren hop =>
      rw [push_paren hop] at h
      cases h
    | missing hop hstack =>
      rw [push_operator_of_length_lt hop hstack] at h
      cases h
    | operands hop =>
      rw [push_operator hop] at h
      exact Or.inr ⟨_, _, _, _, rfl, hop, rfl, (Except.ok.inj h).symm⟩
  · rintro (⟨hvalue, rfl⟩ | ⟨op, right, left, below, rfl, hop, rfl, rfl⟩)
    · exact push_operand hvalue stack
    · exact push_operator hop left right below

/-- Whatever is wrong with a sequence in postfix order, it is malformed. -/
theorem kind_of_push_eq_error {stack : List Expr} {value : Value} {e : Error}
    (h : push stack value = .error e) : e.kind = .malformedExpression := by
  cases finds stack value with
  | operand hvalue =>
    rw [push_operand hvalue] at h
    cases h
  | paren hop =>
    rw [push_paren hop] at h
    cases h
    rfl
  | missing hop hstack =>
    rw [push_operator_of_length_lt hop hstack] at h
    cases h
    rfl
  | operands hop =>
    rw [push_operator hop] at h
    cases h

theorem only_eq_ok_iff {stack : List Expr} {expr : Expr} :
    only stack = .ok expr ↔ stack = [expr] := by
  rcases stack with _ | ⟨latest, _ | ⟨next, below⟩⟩ <;> simp [only]

/-- Where no tree or more than one is left, the sequence is malformed. -/
theorem kind_of_only_eq_error {stack : List Expr} {e : Error} (h : only stack = .error e) :
    e.kind = .malformedExpression := by
  rcases stack with _ | ⟨latest, _ | ⟨next, below⟩⟩
  · cases h
    rfl
  · cases h
  · cases h
    rfl

/-! ### A sequence of values -/

/-- Reading the postfix order of a tree puts that tree on the stack. -/
theorem foldlM_push {expr : Expr} (h : expr.WellFormed) (stack : List Expr) :
    expr.toPostfix.foldlM push stack = .ok (expr :: stack) := by
  -- for every stack: the left part lies on it while the right part is read
  induction expr generalizing stack with
  | literal value =>
    rw [toPostfix, List.foldlM_cons, push_operand h]
    rfl
  | binary op left right ihl ihr =>
    obtain ⟨hop, hl, hr⟩ := h
    rw [toPostfix, List.foldlM_append, List.foldlM_append, ihl hl]
    change (right.toPostfix.foldlM push (left :: stack) >>= _) = _
    rw [ihr hr]
    -- the operator finds its right part on top and its left part below it
    change (push (right :: left :: stack) (.operator op) >>= _) = _
    rw [push_operator hop]
    rfl

/-- **The stack spells what has been read.** -/
theorem spell_of_foldlM_push {values : List Value} {stack stack' : List Expr}
    (h : values.foldlM push stack = .ok stack') : spell stack' = spell stack ++ values := by
  -- one value more on the stack is one more in what it spells, an operator behind its operands
  induction values generalizing stack with
  | nil =>
    cases h
    rw [List.append_nil]
  | cons value values ih =>
    rw [List.foldlM_cons, bind_eq_ok_iff] at h
    obtain ⟨next, hpush, hrest⟩ := h
    have hnext : spell next = spell stack ++ [value] := by
      rcases push_eq_ok_iff.mp hpush with ⟨-, rfl⟩ | ⟨op, right, left, below, rfl, -, rfl, rfl⟩
      · rfl
      · simp only [spell, toPostfix, List.append_assoc]
    rw [ih hrest, hnext, List.append_assoc, List.singleton_append]

/-- Only well-formed trees are built. -/
theorem wellFormed_of_foldlM_push {values : List Value} {stack stack' : List Expr}
    (h : values.foldlM push stack = .ok stack') (hstack : ∀ expr ∈ stack, expr.WellFormed) :
    ∀ expr ∈ stack', expr.WellFormed := by
  induction values generalizing stack with
  | nil =>
    cases h
    exact hstack
  | cons value values ih =>
    rw [List.foldlM_cons, bind_eq_ok_iff] at h
    obtain ⟨next, hpush, hrest⟩ := h
    refine ih hrest ?_
    rcases push_eq_ok_iff.mp hpush with ⟨hvalue, rfl⟩ | ⟨op, right, left, below, rfl, hop, rfl, rfl⟩
    · exact List.forall_mem_cons.mpr ⟨hvalue, hstack⟩
    · -- both parts were on the stack, so they are well-formed already
      obtain ⟨hright, hleft, hbelow⟩ : right.WellFormed ∧ left.WellFormed ∧
          ∀ expr ∈ below, expr.WellFormed := by simpa using hstack
      exact List.forall_mem_cons.mpr ⟨⟨hop, hleft, hright⟩, hbelow⟩

/-! ### Building and flattening -/

/-- Building gives a tree just where reading the sequence leaves that tree alone. -/
theorem ofPostfix_eq_ok_iff_foldlM {values : List Value} {expr : Expr} :
    ofPostfix values = .ok expr ↔ values.foldlM push [] = .ok [expr] := by
  rw [ofPostfix, bind_eq_ok_iff]
  constructor
  · rintro ⟨stack, hstack, honly⟩
    rw [hstack, only_eq_ok_iff.mp honly]
  · intro h
    exact ⟨[expr], h, rfl⟩

/-- **Building undoes flattening, and flattening undoes building.** -/
theorem ofPostfix_eq_ok_iff {values : List Value} {expr : Expr} :
    ofPostfix values = .ok expr ↔ expr.WellFormed ∧ expr.toPostfix = values := by
  rw [ofPostfix_eq_ok_iff_foldlM]
  constructor
  · intro h
    refine ⟨wellFormed_of_foldlM_push h (fun _ hmem => absurd hmem List.not_mem_nil) expr
      (List.mem_singleton_self expr), ?_⟩
    -- a stack of one tree spells the postfix order of that tree
    have hspell := spell_of_foldlM_push h
    rwa [spell, spell, List.nil_append] at hspell
  · rintro ⟨hexpr, rfl⟩
    exact foldlM_push hexpr []

/-- Where no tree can be built, the sequence is malformed. -/
theorem kind_of_ofPostfix_eq_error {values : List Value} {e : Error}
    (h : ofPostfix values = .error e) : e.kind = .malformedExpression := by
  rw [ofPostfix, bind_eq_error_iff] at h
  rcases h with h | ⟨stack, -, honly⟩
  · -- the value that cannot be put on the stack may come at any stack
    generalize ([] : List Expr) = stack at h
    induction values generalizing stack with
    | nil => cases h
    | cons value values ih =>
      rw [List.foldlM_cons, bind_eq_error_iff] at h
      rcases h with hpush | ⟨next, -, hrest⟩
      · exact kind_of_push_eq_error hpush
      · exact ih next hrest
  · exact kind_of_only_eq_error honly

end Expr

end RuleLang
