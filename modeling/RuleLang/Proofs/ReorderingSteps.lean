import Mathlib.Data.List.Induction
import Mathlib.Data.List.TakeWhile
import RuleLang.Proofs.Reordering

/-!
# The steps of the reordering

Everything that one token can do to the state of the reordering, case by case (`Reordering.Steps`).
An operand is output. An opening parenthesis waits. A closing one takes the latest opening one off
the stack with all that waits in front of it, and it is the only token that can be rejected: behind
an opening parenthesis, and where no opening one waits. Any other operator takes off those that bind
at least as tightly, and waits itself.

What holds after every token is shown along these cases (`Reordering.steps`), and nowhere by opening
the definition of a step again. What each of them keeps holds wherever a run has got to
(`Reordering.run_induction`).
-/

namespace RuleLang.Reordering

/-- **One token further**, with the outcome for every token and every state. -/
inductive Steps (r : Reordering) : Value → Except Error Reordering → Prop where
  | unknown (text : String) : Steps r (.unknown text) (.ok r)
  | operand {value : Value} (hvalue : value.IsOperand) :
      Steps r value (.ok (r.advance [value] [] false))
  | leftParen : Steps r (.operator .leftParen) (.ok (r.advance [] [.leftParen] true))
  | emptyParens (hopened : r.opened = true) :
      Steps r (.operator .rightParen) (.error (.malformed .emptyParentheses))
  | neverOpened (hopened : r.opened = false) (hpending : .leftParen ∉ r.pending) :
      Steps r (.operator .rightParen) (.error (.mismatched .neverOpened))
  /-- The operators that wait behind the latest opening parenthesis are output. -/
  | rightParen {waiting below : List Operator} (hopened : r.opened = false)
      (hpending : r.pending = waiting ++ .leftParen :: below) (hwaiting : .leftParen ∉ waiting) :
      Steps r (.operator .rightParen) (.ok ⟨r.emit waiting, below, false⟩)
  /-- The operators that bind at least as tightly are output, down to the first that does not. -/
  | operator {op : Operator} {waiting below : List Operator} (hop : op.isParen = false)
      (hpending : r.pending = waiting ++ below)
      (hwaiting : ∀ w ∈ waiting, op.precedence ≤ w.precedence)
      (hbelow : ∀ w ∈ below.head?, w.precedence < op.precedence) :
      Steps r (.operator op) (.ok ⟨r.emit waiting, op :: below, false⟩)

/-- Operators that are output come behind what was output before. -/
@[simp] theorem toList_emit (r : Reordering) (ops : List Operator) :
    (r.emit ops).toList = r.output.toList ++ ops.map .operator := by
  simp [emit]

/-- A closing parenthesis goes one of its three ways. -/
theorem steps_rightParen (r : Reordering) :
    Steps r (.operator .rightParen) (step r (.operator .rightParen)) := by
  cases hopened : r.opened with
  | true =>
    rw [step_emptyParens hopened]
    exact .emptyParens hopened
  | false =>
    rw [step, if_neg (by simp [hopened])]
    -- the stack is cut at its first opening parenthesis
    have hcut := List.takeWhile_append_dropWhile (p := (· ≠ Operator.leftParen)) (l := r.pending)
    have hwaiting : .leftParen ∉ r.pending.takeWhile (· ≠ .leftParen) := fun hmem => by
      simpa using List.mem_takeWhile_imp hmem
    split
    · rename_i hdrop
      rw [hdrop, List.append_nil] at hcut
      exact .neverOpened hopened (hcut ▸ hwaiting)
    · rename_i latest below hdrop
      have hlatest : latest = .leftParen := by
        have hhead := List.head?_dropWhile_not (· ≠ Operator.leftParen) r.pending
        rw [hdrop] at hhead
        simpa using hhead
      rw [hdrop, hlatest] at hcut
      exact .rightParen hopened hcut.symm hwaiting

/-- An operator takes off those in front of it that bind at least as tightly, and no others. -/
theorem steps_operator (r : Reordering) {op : Operator} (hop : op.isParen = false) :
    Steps r (.operator op) (step r (.operator op)) := by
  rw [step_operator_eq hop]
  refine .operator hop (List.takeWhile_append_dropWhile).symm (fun w hw => ?_) (fun w hw => ?_)
  · simpa [yields] using List.mem_takeWhile_imp hw
  · have hhead := List.head?_dropWhile_not (yields op) r.pending
    rw [Option.mem_def.mp hw] at hhead
    simpa [yields] using hhead

/-- **The steps are these.** -/
theorem steps (r : Reordering) (value : Value) : Steps r value (step r value) := by
  by_cases hvalue : value.IsOperand
  · rw [step_operand hvalue]
    exact .operand hvalue
  · cases value with
    | unknown text => exact .unknown text
    | operator op =>
      cases hop : op.isParen with
      | false => exact steps_operator r hop
      | true =>
        cases op with
        | leftParen =>
          rw [step_leftParen]
          exact .leftParen
        | rightParen => exact steps_rightParen r
        | _ => cases hop
    | _ => exact absurd (by simp [Value.IsOperand, Value.kind]) hvalue

/-- A step that succeeds. -/
theorem steps_of_eq_ok {r r' : Reordering} {value : Value} (h : step r value = .ok r') :
    Steps r value (.ok r') :=
  h ▸ steps r value

/-- **What each step keeps**, a run keeps: it holds of the state and of the tokens read so far. -/
theorem run_induction {motive : Reordering → List Value → Prop} (hstart : motive .start [])
    (hstep : ∀ {r r' read value}, motive r read → Steps r value (.ok r') →
      motive r' (read ++ [value]))
    {read : List Value} {r : Reordering} (hrun : read.foldlM step .start = .ok r) :
    motive r read := by
  -- from the right, since the last step is the one that leads to the state
  induction read using List.reverseRecOn generalizing r with
  | nil =>
    cases hrun
    exact hstart
  | append_singleton read value ih =>
    rw [List.foldlM_append] at hrun
    obtain ⟨before, hbefore, hlast⟩ := bind_eq_ok_iff.mp hrun
    simp only [List.foldlM_cons, List.foldlM_nil, bind_pure] at hlast
    exact hstep (ih hbefore) (steps_of_eq_ok hlast)

end RuleLang.Reordering
