import Mathlib.Data.List.Forall2
import Mathlib.Data.List.Induction
import RuleLang.Evaluation
import RuleLang.Proofs.Postorder

/-!
# Evaluation on a stack simulates evaluation of the tree

Building a tree from postfix order and evaluating postfix order go through the same values with a
stack each, one of trees and one of values. The invariant that ties them together is that the stack
of values is what evaluating the stack of trees gives, the tree at the bottom first
(`Expr.evalStack`). It holds as an equation between computations, notes and errors included: the
stack machine, started behind the evaluation of one stack of trees, ends as the evaluation of the
next (`evalStack_bind_foldlM`). So nothing needs to be said of where an evaluation fails: a failing
application cuts off both sides at the same place.

Where a tree is built the two evaluations are therefore the same computation
(`evalPostfix_eq_eval`). Where none is built, evaluation on a stack fails as well, since the two
stacks have one length (`foldlM_push_of_foldlM_evalStep`).

The notes of an evaluation are read off the operations of the tree in postorder
(`Expr.operations`): each record is that of one operation, in order, and the first operation that
fails is where they end (`Expr.performs_eval`).

From the text of an expression on, either engine therefore ends as the evaluation of the tree does,
once there is a tree (`outcome_evaluate_of_parse`), and there is one wherever it gives a value
(`exists_parse_of_evaluate`).
-/

namespace RuleLang

namespace Expr

/-- The value of the expression is the given one. -/
def HasValue (expr : Expr) (value : Value) : Prop :=
  expr.eval.outcome = .ok value

/-- The values of a stack of trees. The tree that was put there first is evaluated first. -/
def evalStack : List Expr → Logged Error (List Value)
  | [] => pure []
  | expr :: stack => do
    let values ← evalStack stack
    let value ← expr.eval
    return value :: values

/-- The nodes of a tree that apply an operator, in postorder. -/
def operations : Expr → List Expr
  | literal _ => []
  | binary op left right => left.operations ++ right.operations ++ [binary op left right]

theorem length_operations (expr : Expr) : expr.operations.length = expr.operatorCount := by
  induction expr with
  | literal value => rfl
  | binary op left right ihl ihr =>
    rw [operations, List.length_append, List.length_append, ihl, ihr, operatorCount]
    simp only [List.length_singleton]
    omega

/-- The expression applies `op` to `a` and `b`: these are the values of its two parts. -/
inductive Applies : Expr → Operator → Value → Value → Prop where
  | binary {op : Operator} {left right : Expr} {a b : Value} (hleft : left.HasValue a)
      (hright : right.HasValue b) : Applies (binary op left right) op a b

/-- The record is the note of the application at the root. -/
def Notes (expr : Expr) (record : Record) : Prop :=
  ∃ op a b value, expr.Applies op a b ∧ combine op a b = .ok value ∧
    record = .applied op a b value

/-- The two parts have values, and the operator at the root cannot be applied to them. -/
def FailsWith (expr : Expr) (e : Error) : Prop :=
  ∃ op a b, expr.Applies op a b ∧ combine op a b = .error e

/-- A computation performs operations in the given order. If it gives a value it notes each of
them. If it fails it notes those before the first that fails, and ends in the error of that one. -/
def Performs {α : Type} (operations : List Expr) (x : Logged Error α) : Prop :=
  match x.outcome with
  | .ok _ => List.Forall₂ Notes operations x.records
  | .error e => ∃ done failing rest, operations = done ++ failing :: rest ∧
      List.Forall₂ Notes done x.records ∧ failing.FailsWith e

end Expr

/-! ### One application -/

/-- An application that succeeds is noted. -/
theorem apply_of_ok {op : Operator} {left right value : Value}
    (h : combine op left right = .ok value) :
    apply op left right = ⟨[.applied op left right value], .ok value⟩ := by
  rw [apply, h]
  rfl

theorem apply_of_error {op : Operator} {left right : Value} {e : Error}
    (h : combine op left right = .error e) : apply op left right = ⟨[], .error e⟩ := by
  rw [apply, h]
  rfl

/-- An application ends as the operator does on its operands, whatever is noted. -/
theorem outcome_apply (op : Operator) (left right : Value) :
    (apply op left right).outcome = combine op left right := by
  cases h : combine op left right with
  | ok value => rw [apply_of_ok h]
  | error e => rw [apply_of_error h]

/-! ### The notes of an evaluation -/

namespace Expr

/-- The left part is evaluated first, then the right part, and then the operator is applied. -/
theorem eval_binary (op : Operator) (left right : Expr) :
    (binary op left right).eval = left.eval >>= fun a => right.eval >>= fun b => apply op a b :=
  rfl

/-- A row of two computations performs the operations of the first, and then, if these all succeed,
those of the second. -/
theorem Performs.bind {α β : Type} {first second : List Expr} {x : Logged Error α}
    {f : α → Logged Error β} (hx : Performs first x)
    (hf : ∀ a, x.outcome = .ok a → Performs second (f a)) :
    Performs (first ++ second) (x >>= f) := by
  obtain ⟨records, outcome⟩ := x
  cases outcome with
  | error e =>
    -- the second computation does not begin, so its operations are left over
    obtain ⟨done, failing, rest, rfl, hnotes, hfails⟩ := hx
    refine ⟨done, failing, rest ++ second, ?_, hnotes, hfails⟩
    rw [List.append_assoc, List.cons_append]
  | ok a =>
    have hsecond := hf a rfl
    unfold Performs at hsecond ⊢
    rw [Logged.bind_of_ok]
    cases hend : (f a).outcome with
    | ok b =>
      rw [hend] at hsecond
      exact List.rel_append hx hsecond
    | error e =>
      rw [hend] at hsecond
      obtain ⟨done, failing, rest, rfl, hnotes, hfails⟩ := hsecond
      refine ⟨first ++ done, failing, rest, ?_, List.rel_append hx hnotes, hfails⟩
      rw [List.append_assoc]

/-- An application performs the one operation that it is. -/
theorem performs_apply {op : Operator} {left right : Expr} {a b : Value} (hleft : left.HasValue a)
    (hright : right.HasValue b) : Performs [binary op left right] (apply op a b) := by
  have happlies : (binary op left right).Applies op a b := .binary hleft hright
  cases hroot : combine op a b with
  | ok value =>
    rw [apply_of_ok hroot]
    exact .cons ⟨op, a, b, value, happlies, hroot, rfl⟩ .nil
  | error e =>
    rw [apply_of_error hroot]
    exact ⟨[], binary op left right, [], rfl, .nil, op, a, b, happlies, hroot⟩

/-- **An evaluation performs the operations of the tree in postorder.** -/
theorem performs_eval (expr : Expr) : Performs expr.operations expr.eval := by
  induction expr with
  | literal value => exact List.Forall₂.nil
  | binary op left right ihl ihr =>
    -- the parts are performed one behind the other, and the root last, as postorder has it
    rw [operations, List.append_assoc, eval_binary]
    exact ihl.bind fun a ha => ihr.bind fun b hb => performs_apply ha hb

/-- An evaluation that gives a value notes every operator once. -/
theorem length_records_eval {expr : Expr} {value : Value} (h : expr.HasValue value) :
    expr.eval.records.length = expr.operatorCount := by
  have hnotes := performs_eval expr
  unfold Performs at hnotes
  rw [h] at hnotes
  rw [← hnotes.length_eq, length_operations]

end Expr

/-! ### One value on both stacks -/

theorem evalStep_operand {value : Value} (h : value.kind ≠ .operator) (stack : List Value) :
    evalStep stack value = pure (value :: stack) := by
  cases value with
  | operator op => exact absurd rfl h
  | _ => rfl

/-- An operator is applied to the two latest values, the latest of them to its right. -/
theorem evalStep_operator {op : Operator} (h : op.isParen = false) (a b : Value)
    (stack : List Value) :
    evalStep (b :: a :: stack) (.operator op) = apply op a b >>= fun value =>
      pure (value :: stack) := by
  rw [evalStep, h]
  rfl

theorem evalStep_paren {op : Operator} (h : op.isParen = true) (stack : List Value) :
    evalStep stack (.operator op) = .fail (.malformed .parenthesisInPostfix) :=
  if_pos h

/-- An operator has to find two values. -/
theorem evalStep_operator_of_length_lt {op : Operator} (h : op.isParen = false) {stack : List Value}
    (hstack : stack.length < 2) :
    evalStep stack (.operator op) = .fail (.malformed (.missingNear op)) := by
  rcases stack with _ | ⟨b, _ | ⟨a, below⟩⟩
  · exact if_neg (by simp [h])
  · exact if_neg (by simp [h])
  · simp only [List.length_cons] at hstack
    omega

/-- The tree on top is evaluated after those below it. -/
theorem evalStack_cons (expr : Expr) (stack : List Expr) :
    Expr.evalStack (expr :: stack)
      = Expr.evalStack stack >>= fun values => expr.eval >>= fun value => pure (value :: values) :=
  rfl

/-- **The step of the simulation.** What a value does to the stack of trees it does to the stack of
their values. -/
theorem evalStack_bind_evalStep {stack stack' : List Expr} {value : Value}
    (h : Expr.push stack value = .ok stack') :
    (Expr.evalStack stack >>= fun values => evalStep values value) = Expr.evalStack stack' := by
  -- an operand evaluates to itself, and an operator is applied to the two values that the new tree
  -- applies it to, evaluated in the same order
  rcases Expr.push_eq_ok_iff.mp h with ⟨hvalue, rfl⟩ | ⟨op, right, left, below, rfl, hop, rfl, rfl⟩
  · simp only [evalStep_operand hvalue, evalStack_cons, Expr.eval, pure_bind]
  · simp only [evalStack_cons, Expr.eval_binary, bind_assoc, pure_bind, evalStep_operator hop]

/-- **The run of the simulation.** -/
theorem evalStack_bind_foldlM {values : List Value} {stack stack' : List Expr}
    (h : values.foldlM Expr.push stack = .ok stack') :
    (Expr.evalStack stack >>= fun start => values.foldlM evalStep start)
      = Expr.evalStack stack' := by
  -- for every stack, since behind the first value the rest is read on another one
  induction values generalizing stack with
  | nil =>
    cases h
    exact bind_pure _
  | cons value values ih =>
    rw [List.foldlM_cons, bind_eq_ok_iff] at h
    obtain ⟨next, hpush, hrest⟩ := h
    calc (Expr.evalStack stack >>= fun start => (value :: values).foldlM evalStep start)
        = (Expr.evalStack stack >>= fun start => evalStep start value) >>= fun start =>
            values.foldlM evalStep start := by
          simp only [List.foldlM_cons, bind_assoc]
      _ = Expr.evalStack next >>= fun start => values.foldlM evalStep start := by
          rw [evalStack_bind_evalStep hpush]
      _ = Expr.evalStack stack' := ih hrest

/-- From the start, the stack machine computes the values of the stack of trees. -/
theorem foldlM_evalStep_eq_evalStack {values : List Value} {stack : List Expr}
    (h : values.foldlM Expr.push [] = .ok stack) :
    values.foldlM evalStep [] = Expr.evalStack stack := by
  have hrun := evalStack_bind_foldlM h
  rwa [Expr.evalStack, pure_bind] at hrun

/-- **Where a tree is built, the two evaluations are one computation**: they end alike and note the
same. -/
theorem evalPostfix_eq_eval {values : List Value} {expr : Expr}
    (h : Expr.ofPostfix values = .ok expr) : evalPostfix values = expr.eval := by
  have hstack := foldlM_evalStep_eq_evalStack (Expr.ofPostfix_eq_ok_iff_foldlM.mp h)
  calc evalPostfix values
      = Expr.evalStack [expr] >>= fun stack => Logged.ofExcept (onlyValue stack) := by
        rw [evalPostfix, hstack]
    _ = expr.eval >>= fun value => pure value := by
        simp only [Expr.evalStack, bind_assoc, pure_bind]
        rfl
    _ = expr.eval := bind_pure _

/-! ### Where no tree is built -/

/-- A stack of trees has values just where the stack below has, and then the tree on top. -/
theorem outcome_evalStack_cons {expr : Expr} {stack : List Expr} {values : List Value} :
    (Expr.evalStack (expr :: stack)).outcome = .ok values ↔
      ∃ value rest, values = value :: rest ∧ expr.HasValue value ∧
        (Expr.evalStack stack).outcome = .ok rest := by
  simp only [evalStack_cons, Logged.outcome_bind, bind_eq_ok_iff, Logged.outcome_pure]
  constructor
  · rintro ⟨rest, hrest, value, hvalue, hvalues⟩
    exact ⟨value, rest, (Except.ok.inj hvalues).symm, hvalue, hrest⟩
  · rintro ⟨value, rest, rfl, hvalue, hrest⟩
    exact ⟨rest, hrest, value, hvalue, rfl⟩

/-- The two stacks have one length. -/
theorem length_of_evalStack {stack : List Expr} {values : List Value}
    (h : (Expr.evalStack stack).outcome = .ok values) : values.length = stack.length := by
  induction stack generalizing values with
  | nil =>
    cases h
    rfl
  | cons expr stack ih =>
    obtain ⟨value, rest, rfl, -, hrest⟩ := outcome_evalStack_cons.mp h
    rw [List.length_cons, List.length_cons, ih hrest]

/-- A value that the stack machine takes can be put on a stack of trees of the same length. -/
theorem exists_push_of_evalStep {value : Value} {values values' : List Value} {stack : List Expr}
    (h : (evalStep values value).outcome = .ok values') (hlength : values.length = stack.length) :
    ∃ stack', Expr.push stack value = .ok stack' := by
  cases finds stack value with
  | operand hvalue => exact ⟨_, Expr.push_operand hvalue stack⟩
  | paren hop =>
    rw [evalStep_paren hop] at h
    cases h
  | missing hop hstack =>
    -- with fewer than two trees there are fewer than two values, and the machine fails
    rw [evalStep_operator_of_length_lt hop (hlength ▸ hstack)] at h
    cases h
  | operands hop => exact ⟨_, Expr.push_operator hop _ _ _⟩

/-- Where the stack machine gets through, trees are built, and it has their values. -/
theorem foldlM_push_of_foldlM_evalStep {values results : List Value}
    (h : (values.foldlM evalStep []).outcome = .ok results) :
    ∃ stack, values.foldlM Expr.push [] = .ok stack ∧
      (Expr.evalStack stack).outcome = .ok results := by
  -- from the right: the stacks of what is read so far have one length, so the last value finds
  -- as many trees as values
  induction values using List.reverseRecOn generalizing results with
  | nil =>
    cases h
    exact ⟨[], rfl, rfl⟩
  | append_singleton values value ih =>
    have hstep := h
    rw [List.foldlM_append, Logged.outcome_bind, bind_eq_ok_iff] at hstep
    obtain ⟨before, hbefore, hvalue⟩ := hstep
    simp only [List.foldlM_cons, List.foldlM_nil, bind_pure] at hvalue
    obtain ⟨stack, hbuilt, hvalues⟩ := ih hbefore
    obtain ⟨stack', hpush⟩ := exists_push_of_evalStep hvalue (length_of_evalStack hvalues)
    have hbuilt' : (values ++ [value]).foldlM Expr.push [] = .ok stack' := by
      rw [List.foldlM_append, hbuilt]
      change (Expr.push stack value >>= pure) = _
      rw [hpush]
      rfl
    refine ⟨stack', hbuilt', ?_⟩
    rw [← foldlM_evalStep_eq_evalStack hbuilt']
    exact h

theorem onlyValue_eq_ok_iff {stack : List Value} {value : Value} :
    onlyValue stack = .ok value ↔ stack = [value] := by
  rcases stack with _ | ⟨latest, _ | ⟨next, below⟩⟩ <;> simp [onlyValue]

/-- Where the stack machine gives a value, there is a tree with that value. -/
theorem exists_ofPostfix_of_evalPostfix {values : List Value} {value : Value}
    (h : (evalPostfix values).outcome = .ok value) : ∃ expr, Expr.ofPostfix values = .ok expr := by
  rw [evalPostfix, Logged.outcome_bind, bind_eq_ok_iff] at h
  obtain ⟨results, hresults, honly⟩ := h
  obtain ⟨stack, hbuilt, hvalues⟩ := foldlM_push_of_foldlM_evalStep hresults
  rw [Logged.outcome_ofExcept, onlyValue_eq_ok_iff] at honly
  -- one value is left, so one tree is
  have hlength := length_of_evalStack hvalues
  rw [honly, List.length_singleton] at hlength
  obtain ⟨expr, rfl⟩ := List.length_eq_one_iff.mp hlength.symm
  exact ⟨expr, Expr.ofPostfix_eq_ok_iff_foldlM.mpr hbuilt⟩

/-- Where there is no tree, the stack machine fails. -/
theorem evalPostfix_eq_error_of_ofPostfix {values : List Value} {e : Error}
    (h : Expr.ofPostfix values = .error e) : ∃ e', (evalPostfix values).outcome = .error e' := by
  rw [exists_error_iff]
  intro value hvalue
  obtain ⟨expr, hexpr⟩ := exists_ofPostfix_of_evalPostfix hvalue
  rw [h] at hexpr
  cases hexpr

/-! ### The two evaluations of a sequence -/

/-- **Evaluation of any sequence of values on a stack**, against the tree that is built from it. If
there is a tree, both are one computation, with the same result and the same notes in the same
order: the notes are those of the operations in postorder, all of them if there is a value and those
before the first that fails if there is none. If there is no tree, evaluation on a stack fails. -/
theorem evalPostfix_simulates_eval (values : List Value) :
    (∀ expr, Expr.ofPostfix values = .ok expr →
      evalPostfix values = expr.eval ∧
      (∀ value, (evalPostfix values).outcome = .ok value →
        List.Forall₂ Expr.Notes expr.operations (evalPostfix values).records ∧
        (evalPostfix values).records.length = expr.operatorCount) ∧
      (∀ e, (evalPostfix values).outcome = .error e → ∃ done failing rest,
        expr.operations = done ++ failing :: rest ∧
        List.Forall₂ Expr.Notes done (evalPostfix values).records ∧ failing.FailsWith e)) ∧
    (∀ e, Expr.ofPostfix values = .error e → ∃ e', (evalPostfix values).outcome = .error e') := by
  constructor
  · -- the equation says that result and notes are the same; what they are is said of the tree
    intro expr hexpr
    have hperforms := Expr.performs_eval expr
    rw [evalPostfix_eq_eval hexpr]
    refine ⟨rfl, fun value h => ⟨?_, Expr.length_records_eval h⟩, fun e h => ?_⟩
    · unfold Expr.Performs at hperforms
      rwa [h] at hperforms
    · unfold Expr.Performs at hperforms
      rwa [h] at hperforms
  · intro e he
    exact evalPostfix_eq_error_of_ofPostfix he

/-! ### From the text -/

/-- Where the tokens of an expression make a tree, either engine ends as the tree evaluates. -/
theorem outcome_evaluate_of_parse {expression : String} {tokens : List Value} {expr : Expr}
    (htokens : (tokenize expression).outcome = .ok tokens)
    (hparse : (parse tokens).outcome = .ok expr) (engine : Engine) :
    (evaluate engine expression).outcome = expr.eval.outcome := by
  rw [outcome_parse, bind_eq_ok_iff] at hparse
  obtain ⟨values, hvalues, hexpr⟩ := hparse
  obtain ⟨htree, hstack⟩ := outcome_evaluate expression
  cases engine with
  | tree =>
    rw [htree, htokens]
    change (postfixOrder tokens >>= _) = _
    rw [hvalues]
    change (Expr.ofPostfix values >>= _) = _
    rw [hexpr]
    rfl
  | stack =>
    rw [hstack, htokens]
    change (postfixOrder tokens >>= _) = _
    rw [hvalues]
    change (evalPostfix values).outcome = _
    rw [evalPostfix_eq_eval hexpr]

/-- An expression that has a value has a tree with that value, whichever engine gave it. -/
theorem exists_parse_of_evaluate {engine : Engine} {expression : String} {value : Value}
    (h : (evaluate engine expression).outcome = .ok value) :
    ∃ tokens expr, (tokenize expression).outcome = .ok tokens ∧
      (parse tokens).outcome = .ok expr ∧ expr.HasValue value := by
  obtain ⟨htree, hstack⟩ := outcome_evaluate expression
  have hstages : ∃ tokens values expr, (tokenize expression).outcome = .ok tokens ∧
      postfixOrder tokens = .ok values ∧ Expr.ofPostfix values = .ok expr := by
    cases engine with
    | tree =>
      rw [htree, bind_eq_ok_iff] at h
      obtain ⟨values, hvalues, h⟩ := h
      obtain ⟨tokens, htokens, hvalues⟩ := bind_eq_ok_iff.mp hvalues
      obtain ⟨expr, hexpr, -⟩ := bind_eq_ok_iff.mp h
      exact ⟨tokens, values, expr, htokens, hvalues, hexpr⟩
    | stack =>
      rw [hstack, bind_eq_ok_iff] at h
      obtain ⟨values, hvalues, h⟩ := h
      obtain ⟨tokens, htokens, hvalues⟩ := bind_eq_ok_iff.mp hvalues
      obtain ⟨expr, hexpr⟩ := exists_ofPostfix_of_evalPostfix h
      exact ⟨tokens, values, expr, htokens, hvalues, hexpr⟩
  obtain ⟨tokens, values, expr, htokens, hvalues, hexpr⟩ := hstages
  have hparse : (parse tokens).outcome = .ok expr := by
    rw [outcome_parse, hvalues]
    exact hexpr
  rw [outcome_evaluate_of_parse htokens hparse] at h
  exact ⟨tokens, expr, htokens, hparse, h⟩

end RuleLang
