import RuleLang.Proofs.InfixGrammar

/-!
# Reordering follows the grammar

What the reordering of tokens does to a phrase of the grammar, in any state it may be in when the
phrase comes. It outputs some values, and some operators of the phrase are left waiting on top of
those that waited before (`Reordering.advance`). The ones left waiting bind at least as tightly as
the layer of the phrase, and what was output together with them is the phrase in postfix order
(`Translates.foldlM_step`).

The phrase must not disturb the operators that wait in front of it: they have to bind less tightly
than its layer, or to be shut off by a parenthesis. Both are said by the precedence of the latest
one alone.

For a whole expression nothing waits in front, and the operators left over are output at the end.
So the reordering computes the translation (`postfixOrder_of_translates`), and a sentence parses as
its one tree of the layered grammar (`parse_sentence`). That a sentence has no second tree needs no
argument of its own: it would parse as that one too.
-/

namespace RuleLang

namespace Reordering

/-- The state after more values have been output and more operators wait. -/
def advance (r : Reordering) (output : List Value) (waiting : List Operator) (opened : Bool) :
    Reordering :=
  ⟨r.output ++ output.toArray, waiting ++ r.pending, opened⟩

theorem advance_nil (r : Reordering) : r.advance [] [] r.opened = r := by
  simp [advance]

theorem advance_advance (r : Reordering) (output output' : List Value)
    (waiting waiting' : List Operator) (opened opened' : Bool) :
    (r.advance output waiting opened).advance output' waiting' opened'
      = r.advance (output ++ output') (waiting' ++ waiting) opened' := by
  simp [advance]

/-! ### One token -/

/-- An operand is output. -/
theorem step_operand {value : Value} (h : value.IsOperand) (r : Reordering) :
    step r value = .ok (r.advance [value] [] false) := by
  cases value with
  | operator op => exact absurd rfl h.1
  | unknown text => exact absurd rfl h.2
  | _ => simp [step, advance]

theorem step_leftParen (r : Reordering) :
    step r (.operator .leftParen) = .ok (r.advance [] [.leftParen] true) := by
  simp [step, advance]

/-- A closing parenthesis right behind an opening one is rejected. -/
theorem step_emptyParens {r : Reordering} (h : r.opened = true) :
    step r (.operator .rightParen) = .error (.malformed .emptyParentheses) := by
  rw [step, if_pos h]

/-- A closing parenthesis outputs the operators that wait behind the latest opening one. -/
theorem step_rightParen (r : Reordering) (output : List Value) {waiting : List Operator}
    (h : .leftParen ∉ waiting) :
    step (r.advance output (waiting ++ [.leftParen]) false) (.operator .rightParen)
      = .ok (r.advance (output ++ waiting.map .operator) [] false) := by
  -- so the search for the opening parenthesis passes all that wait in front of it
  have hwaiting : ∀ op ∈ waiting, decide (op ≠ .leftParen) = true := by
    intro op hop
    rw [decide_eq_true_eq]
    rintro rfl
    exact h hop
  simp only [step, advance, List.append_assoc, List.singleton_append, emit]
  rw [List.dropWhile_append_of_pos hwaiting, List.takeWhile_append_of_pos hwaiting,
    List.dropWhile_cons_of_neg (by simp), List.takeWhile_cons_of_neg (by simp)]
  simp

/-- An operator takes off those that yield to it and waits itself. -/
theorem step_operator_eq {op : Operator} (hop : op.isParen = false) (r : Reordering) :
    step r (.operator op) = .ok ⟨r.emit (r.pending.takeWhile (yields op)),
      op :: r.pending.dropWhile (yields op), false⟩ := by
  cases op with
  | leftParen => cases hop
  | rightParen => cases hop
  | _ => rfl

/-- No operator yields to one that binds more tightly than the latest. -/
theorem takeWhile_yields {op : Operator} {pending : List Operator}
    (h : ∀ waiting ∈ pending.head?, waiting.precedence < op.precedence) :
    pending.takeWhile (yields op) = [] ∧ pending.dropWhile (yields op) = pending := by
  cases pending with
  | nil => exact ⟨rfl, rfl⟩
  | cons latest pending =>
    have hlatest : ¬ yields op latest = true := by
      simpa [yields] using h latest rfl
    exact ⟨List.takeWhile_cons_of_neg hlatest, List.dropWhile_cons_of_neg hlatest⟩

/-- An operator outputs those that bind at least as tightly, down to the first that does not, and
then waits itself. -/
theorem step_operator (r : Reordering) (output : List Value) (opened : Bool)
    {waiting : List Operator} {op : Operator} (hop : op.isParen = false)
    (hwaiting : ∀ w ∈ waiting, op.precedence ≤ w.precedence)
    (hpending : ∀ w ∈ r.pending.head?, w.precedence < op.precedence) :
    step (r.advance output waiting opened) (.operator op)
      = .ok (r.advance (output ++ waiting.map .operator) [op] false) := by
  have hyields : ∀ w ∈ waiting, yields op w = true := by
    intro w hw
    simpa [yields] using hwaiting w hw
  obtain ⟨htake, hdrop⟩ := takeWhile_yields hpending
  rw [step_operator_eq hop]
  simp only [advance, emit]
  rw [List.takeWhile_append_of_pos hyields, List.dropWhile_append_of_pos hyields, htake, hdrop]
  simp

end Reordering

/-! ### A phrase -/

/-- No operator binds more tightly than those of layer 5. -/
theorem eq_nil_of_six_le {waiting : List Operator} (h : ∀ w ∈ waiting, 6 ≤ w.precedence) :
    waiting = [] := by
  cases waiting with
  | nil => rfl
  | cons w waiting =>
    have hlow := h w List.mem_cons_self
    have hhigh := w.precedence_le
    omega

/-- An opening parenthesis does not wait where operators of some layer do. -/
theorem leftParen_not_mem {waiting : List Operator} (h : ∀ w ∈ waiting, 1 ≤ w.precedence) :
    .leftParen ∉ waiting := by
  intro hmem
  have hprec := h _ hmem
  simp [Operator.precedence] at hprec

open Reordering in
/-- **A phrase of the grammar**, read in any state where the latest operator that waits binds less
tightly than the layer of the phrase. What is output and what is left waiting make up the phrase in
postfix order. -/
theorem Translates.foldlM_step {layer : Nat} {tokens values : List Value}
    (h : Translates layer tokens values) (hlayer : 1 ≤ layer) (r : Reordering)
    (hpending : ∀ w ∈ r.pending.head?, w.precedence < layer) :
    ∃ output waiting,
      tokens.foldlM step r = .ok (r.advance output waiting (r.opened && tokens.isEmpty)) ∧
      (∀ w ∈ waiting, layer ≤ w.precedence) ∧ values = output ++ waiting.map .operator := by
  -- on the phrase, for every state: its right parts and groups are read with more in front of them
  induction h generalizing r with
  | nothing =>
    refine ⟨[], [], ?_, by simp, rfl⟩
    rw [List.isEmpty_nil, Bool.and_true, advance_nil]
    rfl
  | @operand tokens values value _ hvalue ih =>
    -- operands and groups leave nothing waiting, so the next one is output right behind them
    obtain ⟨output, waiting, hrun, hwaiting, rfl⟩ := ih hlayer r hpending
    obtain rfl := eq_nil_of_six_le hwaiting
    have hne : (tokens ++ [value]).isEmpty = false := by simp [List.isEmpty_eq_false_iff]
    refine ⟨output ++ [value], [], ?_, by simp, by simp⟩
    rw [List.foldlM_append, hrun, hne, Bool.and_false]
    change (step _ value >>= pure) = _
    rw [step_operand hvalue, advance_advance]
    rfl
  | @group tokens inner values values' _ _ hne ih ihInner =>
    obtain ⟨output, waiting, hrun, hwaiting, rfl⟩ := ih hlayer r hpending
    obtain rfl := eq_nil_of_six_le hwaiting
    -- the parenthesis shuts off all that waits in front of the group
    obtain ⟨output', waiting', hrun', hwaiting', rfl⟩ :=
      ihInner (Nat.le_refl 1) (r.advance output [.leftParen] true)
        (by simp [advance, Operator.precedence])
    have hopen := leftParen_not_mem hwaiting'
    have hempty : inner.isEmpty = false := List.isEmpty_eq_false_iff.mpr hne
    have hempty' : (tokens ++ parenthesized inner).isEmpty = false := by
      simp [List.isEmpty_eq_false_iff, parenthesized]
    refine ⟨output ++ (output' ++ waiting'.map Value.operator), [], ?_, by simp, by simp⟩
    rw [List.foldlM_append, hrun, hempty', Bool.and_false]
    change (step _ (.operator .leftParen) >>= fun r =>
      (inner ++ [Value.operator .rightParen]).foldlM step r) = _
    rw [step_leftParen, advance_advance]
    change (inner ++ [Value.operator .rightParen]).foldlM step
      (r.advance (output ++ []) [.leftParen] true) = _
    rw [List.append_nil, List.foldlM_append, hrun', advance_advance]
    change (step (r.advance _ _ (true && inner.isEmpty)) (.operator .rightParen) >>= pure) = _
    rw [hempty, Bool.and_false, step_rightParen r _ hopen]
    rw [List.append_assoc]
    rfl
  | tighter _ ih =>
    obtain ⟨output, waiting, hrun, hwaiting, hvalues⟩ :=
      ih (by omega) r fun w hw => Nat.lt_succ_of_lt (hpending w hw)
    exact ⟨output, waiting, hrun, fun w hw => Nat.le_of_succ_le (hwaiting w hw), hvalues⟩
  | @application layer left right values values' op _ hop hprec _ ihl ihr =>
    obtain ⟨output, waiting, hrun, hwaiting, rfl⟩ := ihl hlayer r hpending
    subst hprec
    -- the operator finds its own layer on the stack and leaves it with itself alone
    obtain ⟨output', waiting', hrun', hwaiting', rfl⟩ :=
      ihr (by omega) (r.advance (output ++ waiting.map .operator) [op] false) (by simp [advance])
    refine ⟨output ++ waiting.map .operator ++ output', waiting' ++ [op], ?_, ?_, by simp⟩
    · rw [List.foldlM_append, hrun]
      change (step _ (.operator op) >>= fun r => right.foldlM step r) = _
      rw [step_operator r output _ hop hwaiting hpending]
      change right.foldlM step (r.advance (output ++ waiting.map .operator) [op] false) = _
      rw [hrun', advance_advance]
      simp [advance]
    · intro w hw
      rcases List.mem_append.mp hw with hw | hw
      · exact Nat.le_of_succ_le (hwaiting' w hw)
      · obtain rfl := List.mem_singleton.mp hw
        exact Nat.le_refl _

/-! ### A whole expression -/

/-- **The reordering computes the translation.** -/
theorem postfixOrder_of_translates {tokens values : List Value} (h : Translates 1 tokens values) :
    postfixOrder tokens = .ok values := by
  obtain ⟨output, waiting, hrun, hwaiting, rfl⟩ :=
    h.foldlM_step (Nat.le_refl 1) .start (by simp [Reordering.start])
  -- what is left waiting are operators, and they are output at the end
  have hopen := leftParen_not_mem hwaiting
  rw [postfixOrder, hrun]
  change (Reordering.advance .start output waiting _).finish = _
  simp only [Reordering.finish, Reordering.advance, Reordering.start, Reordering.emit,
    List.append_nil]
  rw [if_neg hopen]
  simp

/-- Parsing gives the tree whose postfix order is the translation. -/
theorem parse_of_translates {tokens : List Value} {expr : Expr} (hwell : expr.WellFormed)
    (h : Translates 1 tokens expr.toPostfix) : (parse tokens).outcome = .ok expr := by
  rw [outcome_parse, postfixOrder_of_translates h]
  exact Expr.ofPostfix_eq_ok_iff.mpr ⟨hwell, rfl⟩

/-- Parsing gives the tree of the layered grammar. -/
theorem Layered.parse {tokens : List Value} {expr : Expr} (h : Layered 1 tokens expr) :
    (parse tokens).outcome = .ok expr :=
  parse_of_translates h.wellFormed h.translates

end RuleLang
