import RuleLang.Proofs.Simulation

/-!
# Where the two engines agree

Both engines put the tokens in the same postfix order. From there on they differ in one thing: the
tree is built before anything is applied, while on the stack an operator is applied when it comes.
Where a tree is built, this makes no difference (`evalPostfix_eq_eval`). Where none is built, the
tree engine reports that the expression is malformed. The stack engine does so too, unless it meets
an application that fails in front of the fault, and then it reports that failure.

So the engines disagree on the expressions with two faults of this kind (`FailureBeforeFault`), and
on no others (`engines_agree_iff`). An example is `1/0+`, which lacks an operand behind a division
by zero.
-/

namespace RuleLang

/-- Two outcomes agree: they are the same value, or errors of one kind. -/
def Agree : Except Error Value → Except Error Value → Prop
  | .ok value, .ok value' => value = value'
  | .error e, .error e' => e.kind = e'.kind
  | _, _ => False

instance : (x y : Except Error Value) → Decidable (Agree x y)
  | .ok value, .ok value' => inferInstanceAs (Decidable (value = value'))
  | .error e, .error e' => inferInstanceAs (Decidable (e.kind = e'.kind))
  | .ok _, .error _ | .error _, .ok _ => inferInstanceAs (Decidable False)

theorem Agree.refl (x : Except Error Value) : Agree x x := by
  cases x <;> rfl

/-- The first application that fails in a postfix order, and its error. The values in front of its
operator make a stack of trees. The two latest trees are its operands, and those below have
values. -/
def FailsFirst (values : List Value) (e : Error) : Prop :=
  ∃ done op rest right left below, values = done ++ .operator op :: rest ∧ op.isParen = false ∧
    done.foldlM Expr.push [] = .ok (right :: left :: below) ∧
    (∀ expr ∈ below, ∃ value, expr.HasValue value) ∧ (Expr.binary op left right).FailsWith e

/-- An expression whose tokens make no tree, with an application in front of the fault that fails
for a reason of its own. -/
def FailureBeforeFault (expression : String) : Prop :=
  ∃ tokens values e, (tokenize expression).outcome = .ok tokens ∧
    postfixOrder tokens = .ok values ∧ (∀ expr, Expr.ofPostfix values ≠ .ok expr) ∧
    FailsFirst values e ∧ e.kind ≠ .malformedExpression

/-! ### The first application that fails -/

/-- A stack of trees that all have values has them. -/
theorem exists_outcome_evalStack {stack : List Expr}
    (h : ∀ expr ∈ stack, ∃ value, expr.HasValue value) :
    ∃ values, (Expr.evalStack stack).outcome = .ok values := by
  induction stack with
  | nil => exact ⟨[], rfl⟩
  | cons expr stack ih =>
    obtain ⟨⟨value, hvalue⟩, hstack⟩ := List.forall_mem_cons.mp h
    obtain ⟨values, hvalues⟩ := ih hstack
    exact ⟨value :: values, outcome_evalStack_cons.mpr ⟨value, values, rfl, hvalue, hvalues⟩⟩

/-- The trees of a stack that has values all have one. -/
theorem forall_hasValue_of_evalStack {stack : List Expr} {values : List Value}
    (h : (Expr.evalStack stack).outcome = .ok values) :
    ∀ expr ∈ stack, ∃ value, expr.HasValue value := by
  induction stack generalizing values with
  | nil => exact fun _ hmem => absurd hmem List.not_mem_nil
  | cons expr stack ih =>
    obtain ⟨value, rest, -, hvalue, hrest⟩ := outcome_evalStack_cons.mp h
    exact List.forall_mem_cons.mpr ⟨⟨value, hvalue⟩, ih hrest⟩

/-- The stack machine stops at the first application that fails, whatever comes behind it. -/
theorem FailsFirst.outcome_evalPostfix {values : List Value} {e : Error}
    (h : FailsFirst values e) : (evalPostfix values).outcome = .error e := by
  obtain ⟨done, op, rest, right, left, below, rfl, hop, hbuilt, hbelow, hfails⟩ := h
  obtain ⟨_, a, b, ⟨hleft, hright⟩, hfails⟩ := hfails
  obtain ⟨under, hunder⟩ := exists_outcome_evalStack hbelow
  -- nothing in front of the operator fails, so it finds the values of the trees
  have hstack : (done.foldlM evalStep []).outcome = .ok (b :: a :: under) := by
    rw [foldlM_evalStep_eq_evalStack hbuilt]
    refine outcome_evalStack_cons.mpr ⟨b, a :: under, rfl, hright, ?_⟩
    exact outcome_evalStack_cons.mpr ⟨a, under, rfl, hleft, hunder⟩
  have hrun : ((done ++ .operator op :: rest).foldlM evalStep []).outcome = .error e := by
    rw [List.foldlM_append, Logged.outcome_bind, hstack]
    change (evalStep (b :: a :: under) (.operator op) >>= fun stack =>
      rest.foldlM evalStep stack).outcome = .error e
    rw [evalStep_operator hop, apply_of_error hfails]
    rfl
  rw [evalPostfix, Logged.outcome_bind, hrun]
  rfl

/-- An error of one step of the stack machine is that of an application, or the sequence is
malformed. -/
theorem evalStep_eq_error {value : Value} {stack : List Value} {e : Error}
    (h : (evalStep stack value).outcome = .error e) :
    e.kind = .malformedExpression ∨ ∃ op a b below, value = .operator op ∧ op.isParen = false ∧
      stack = b :: a :: below ∧ combine op a b = .error e := by
  cases finds stack value with
  | operand hvalue =>
    rw [evalStep_operand hvalue] at h
    cases h
  | paren hop =>
    rw [evalStep_paren hop] at h
    cases h
    exact Or.inl rfl
  | missing hop hstack =>
    rw [evalStep_operator_of_length_lt hop hstack] at h
    cases h
    exact Or.inl rfl
  | @operands b a below op hop =>
    rw [evalStep_operator hop, Logged.outcome_bind, outcome_apply, bind_eq_error_iff] at h
    rcases h with hfails | ⟨result, -, hresult⟩
    · exact Or.inr ⟨op, a, b, below, rfl, hop, rfl, hfails⟩
    · cases hresult

/-- An error of the stack machine is that of the first application that fails, or the sequence is
malformed. -/
theorem failsFirst_of_foldlM_evalStep {values : List Value} {e : Error}
    (h : (values.foldlM evalStep []).outcome = .error e) :
    e.kind = .malformedExpression ∨ FailsFirst values e := by
  -- from the right: an error in front of the last value is the first one as well
  induction values using List.reverseRecOn with
  | nil => cases h
  | append_singleton values value ih =>
    rw [List.foldlM_append, Logged.outcome_bind, bind_eq_error_iff] at h
    rcases h with hbefore | ⟨before, hbefore, hvalue⟩
    · refine (ih hbefore).imp id ?_
      rintro ⟨done, op, rest, right, left, below, rfl, hfails⟩
      exact ⟨done, op, rest ++ [value], right, left, below, by simp, hfails⟩
    · simp only [List.foldlM_cons, List.foldlM_nil, bind_pure] at hvalue
      refine (evalStep_eq_error hvalue).imp id ?_
      rintro ⟨op, a, b, under, rfl, hop, rfl, hfails⟩
      obtain ⟨stack, hbuilt, hvalues⟩ := foldlM_push_of_foldlM_evalStep hbefore
      -- the two stacks have one length, so there are two trees for the two values
      rcases stack with _ | ⟨right, _ | ⟨left, below⟩⟩
      · cases length_of_evalStack hvalues
      · cases length_of_evalStack hvalues
      · obtain ⟨_, _, hb, hright, hrest⟩ := outcome_evalStack_cons.mp hvalues
        cases hb
        obtain ⟨_, _, ha, hleft, hbelow⟩ := outcome_evalStack_cons.mp hrest
        cases ha
        exact ⟨values, op, [], right, left, below, rfl, hop, hbuilt,
          forall_hasValue_of_evalStack hbelow, op, a, b, ⟨hleft, hright⟩, hfails⟩

theorem failsFirst_of_evalPostfix {values : List Value} {e : Error}
    (h : (evalPostfix values).outcome = .error e) :
    e.kind = .malformedExpression ∨ FailsFirst values e := by
  rw [evalPostfix, Logged.outcome_bind, bind_eq_error_iff] at h
  rcases h with hrun | ⟨stack, -, honly⟩
  · exact failsFirst_of_foldlM_evalStep hrun
  · left
    rw [Logged.outcome_ofExcept] at honly
    rcases stack with _ | ⟨latest, _ | ⟨next, below⟩⟩
    · cases honly
      rfl
    · cases honly
    · cases honly
      rfl

/-! ### Agreement -/

/-- On a sequence in postfix order the two evaluations agree unless there is no tree and an
application fails first. -/
theorem agree_iff_not_failsFirst (values : List Value) :
    Agree (Expr.ofPostfix values >>= fun expr => expr.eval.outcome) (evalPostfix values).outcome ↔
      ¬ ∃ e, (∀ expr, Expr.ofPostfix values ≠ .ok expr) ∧ FailsFirst values e ∧
        e.kind ≠ .malformedExpression := by
  cases htree : Expr.ofPostfix values with
  | ok expr =>
    rw [evalPostfix_eq_eval htree]
    refine iff_of_true (Agree.refl _) ?_
    rintro ⟨e, hnone, -⟩
    exact hnone expr rfl
  | error e =>
    obtain ⟨e', he'⟩ := evalPostfix_eq_error_of_ofPostfix htree
    rw [he']
    change e.kind = e'.kind ↔ _
    rw [Expr.kind_of_ofPostfix_eq_error htree]
    -- the one error is malformed, so they agree just if the other one is malformed too
    constructor
    · rintro hkind ⟨e'', -, hfails, hkind''⟩
      rw [hfails.outcome_evalPostfix] at he'
      cases he'
      exact hkind'' hkind.symm
    · intro hnot
      by_contra hkind
      refine hnot ⟨e', (fun expr h => by cases h), ?_, fun h => hkind h.symm⟩
      exact (failsFirst_of_evalPostfix he').resolve_left fun h => hkind h.symm

/-- **The engines agree on an expression unless an application fails in front of a fault** for
which the tokens make no tree. -/
theorem engines_agree_iff (expression : String) :
    Agree (evaluate .tree expression).outcome (evaluate .stack expression).outcome ↔
      ¬ FailureBeforeFault expression := by
  obtain ⟨htree, hstack⟩ := outcome_evaluate expression
  rw [htree, hstack]
  -- an error of a stage that both engines share is the same for both
  cases htokens : (tokenize expression).outcome with
  | error e =>
    refine iff_of_true (Agree.refl _) ?_
    rintro ⟨tokens, values, e', h, -⟩
    rw [htokens] at h
    cases h
  | ok tokens =>
    change Agree (postfixOrder tokens >>= _) (postfixOrder tokens >>= _) ↔ _
    cases hvalues : postfixOrder tokens with
    | error e =>
      refine iff_of_true (Agree.refl _) ?_
      rintro ⟨tokens', values, e', h, hpostfix, -⟩
      rw [htokens] at h
      cases h
      rw [hvalues] at hpostfix
      cases hpostfix
    | ok values =>
      refine (agree_iff_not_failsFirst values).trans (not_congr ?_)
      constructor
      · rintro ⟨e, hfault⟩
        exact ⟨tokens, values, e, htokens, hvalues, hfault⟩
      · rintro ⟨tokens', values', e, h, hpostfix, hfault⟩
        rw [htokens] at h
        cases h
        rw [hvalues] at hpostfix
        cases hpostfix
        exact ⟨e, hfault⟩

/-- A division by zero in front of a missing operand: the tree engine reports the one, the stack
engine the other. -/
theorem engines_disagree_at_division_before_missing_operand :
    (evaluate .tree "1/0+").outcome = .error (.malformed (.missingNear .add)) ∧
    (evaluate .stack "1/0+").outcome = .error .divideByZero ∧
    ¬ Agree (evaluate .tree "1/0+").outcome (evaluate .stack "1/0+").outcome := by
  refine ⟨?_, ?_, ?_⟩ <;> decide +kernel

end RuleLang
