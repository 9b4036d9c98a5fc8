import Mathlib.Data.List.Chain
import RuleLang.Proofs.ParenthesisFaults

/-!
# The operators that wait

How the operators stand on the stack of the reordering, whatever tokens have been read and whether
they make an expression or not. What is kept from token to token is a relation between neighbours
alone (`Reordering.Tiered`): an operator stands on one that binds less tightly, and an opening
parenthesis on anything. So between two parentheses precedences increase strictly from the bottom to
the top, and there are only five of them to go through.

The five are counted together with the parentheses (`Reordering.Tiered.length_le`). A stack is no
longer than six times the number of its parentheses and the precedence of its top
(`Reordering.height`): each operator raises the precedence by one at least, and a parenthesis, which
falls back to zero, counts for one whole way up. From that come both bounds, the one for a single
tier and the one for the stack.

At a closing parenthesis and at the end the stack is taken off down to the latest opening
parenthesis (`Reordering.unwound`). That is one tier from its top, so its operators come out in the
order in which they bind (`operators_wait_in_tiers`).
-/

namespace RuleLang

/-- Whether an operator binds more tightly than another one. -/
def Operator.BindsTighter (upper lower : Operator) : Prop :=
  lower.precedence < upper.precedence

instance : Trans Operator.BindsTighter Operator.BindsTighter Operator.BindsTighter :=
  ⟨fun hupper hlower => Nat.lt_trans hlower hupper⟩

namespace Reordering

/-- Whether an operator can stand on another one. -/
def StandsOn (upper lower : Operator) : Prop :=
  upper = .leftParen ∨ upper.BindsTighter lower

/-- **What is kept of the stack**, the latest operator first. -/
structure Tiered (pending : List Operator) : Prop where
  opening : .rightParen ∉ pending
  ordered : pending.IsChain StandsOn

/-- How far the precedences have got at the top of a stack. -/
def height : List Operator → Nat
  | [] => 0
  | op :: _ => op.precedence

/-- The operators that leave the stack at a closing parenthesis and at the end, in this order: those
in front of the latest opening parenthesis. -/
def unwound (r : Reordering) : List Operator :=
  r.pending.takeWhile (· ≠ .leftParen)

variable {pending tier : List Operator} {op : Operator} {value : Value} {r r' : Reordering}

/-! ### Tiers -/

theorem height_le_five (pending : List Operator) : height pending ≤ 5 := by
  cases pending with
  | nil => exact Nat.zero_le 5
  | cons op pending => exact op.precedence_le

namespace Tiered

theorem of_isInfix (h : Tiered pending) (htier : tier <:+: pending) : Tiered tier :=
  ⟨fun hmem => h.opening (htier.subset hmem), h.ordered.infix htier⟩

/-- An operator comes to stand on a stack. -/
theorem cons (h : Tiered pending) (hop : op ≠ .rightParen)
    (hstands : ∀ lower ∈ pending.head?, StandsOn op lower) : Tiered (op :: pending) :=
  ⟨List.not_mem_cons_of_ne_of_not_mem hop.symm h.opening, h.ordered.cons hstands⟩

/-- An operator that is applied binds more tightly than the one it stands on. -/
theorem height_lt (h : Tiered (op :: pending)) (hparen : op ≠ .leftParen) :
    height pending < op.precedence := by
  -- no closing parenthesis waits, so what is no opening one is applied
  have hop : op.isParen = false := by
    cases op with
    | leftParen => exact absurd rfl hparen
    | rightParen => exact absurd List.mem_cons_self h.opening
    | _ => rfl
  cases pending with
  | nil => exact Operator.precedence_pos hop
  | cons lower pending => exact ((List.isChain_cons.mp h.ordered).1 lower rfl).resolve_left hparen

/-- **The length of a stack.** -/
theorem length_le (h : Tiered pending) :
    pending.length ≤ 6 * pending.count .leftParen + height pending := by
  induction pending with
  | nil => exact Nat.zero_le _
  | cons op pending ih =>
    have hlength := ih (h.of_isInfix (List.suffix_cons op pending).isInfix)
    rw [List.length_cons]
    by_cases hparen : op = .leftParen
    · -- the parenthesis counts for itself and for all the way up that is below it
      have hheight := height_le_five pending
      rw [hparen, List.count_cons_self]
      omega
    · have hheight := h.height_lt hparen
      rw [List.count_cons_of_ne hparen, height]
      omega

/-- A stack has no more than six operators for each opening parenthesis and five. -/
theorem length_le_depth (h : Tiered pending) :
    pending.length ≤ 6 * pending.count .leftParen + 5 :=
  Nat.le_trans h.length_le (Nat.add_le_add_left (height_le_five pending) _)

/-- **A tier**: between parentheses the precedences increase from the bottom to the top. -/
theorem pairwise (h : Tiered tier) (hparen : .leftParen ∉ tier) :
    tier.Pairwise Operator.BindsTighter := by
  -- neighbours are enough, since the order of precedences is transitive
  refine List.IsChain.pairwise (h.ordered.imp_of_mem_imp fun upper lower hupper _ hstands => ?_)
  exact hstands.resolve_left fun heq => hparen (heq ▸ hupper)

theorem length_le_five (h : Tiered tier) (hparen : .leftParen ∉ tier) : tier.length ≤ 5 := by
  have hlength := h.length_le_depth
  rwa [List.count_eq_zero.mpr hparen] at hlength

end Tiered

/-! ### From token to token -/

/-- **One token further.** -/
theorem tiered_of_steps (h : Tiered r.pending) (hsteps : Steps r value (.ok r')) :
    Tiered r'.pending := by
  cases hsteps with
  | unknown text => exact h
  | operand hvalue => exact h
  | leftParen => exact h.cons (by decide) fun _ _ => Or.inl rfl
  | @rightParen waiting below hopened hpending hwaiting =>
    refine h.of_isInfix (List.IsSuffix.isInfix ?_)
    rw [hpending]
    exact (List.suffix_cons _ below).trans (List.suffix_append waiting _)
  | @operator op waiting below hop hpending hwaiting hbelow =>
    -- the operators that would be out of order under this one have been taken off
    have htier : Tiered below := h.of_isInfix (hpending ▸ (List.suffix_append _ _).isInfix)
    refine htier.cons ?_ fun lower hlower => Or.inr (hbelow lower hlower)
    rintro rfl
    cases hop

/-- The stack is tiered after every run. -/
theorem tiered_of_run {read : List Value} (hrun : read.foldlM step .start = .ok r) :
    Tiered r.pending :=
  run_induction (motive := fun r _ => Tiered r.pending) ⟨List.not_mem_nil, .nil⟩ tiered_of_steps
    hrun

/-- The parentheses on the stack are the open ones. -/
theorem depth_of_run {read : List Value} (hrun : read.foldlM step .start = .ok r) :
    r.depth + read.count (.operator .rightParen) = read.count (.operator .leftParen) :=
  run_induction (motive := fun r read =>
    r.depth + read.count (.operator .rightParen) = read.count (.operator .leftParen))
    rfl depth_concat hrun

/-! ### What is taken off -/

theorem leftParen_not_mem_unwound (r : Reordering) : .leftParen ∉ r.unwound := fun hmem => by
  simpa using List.mem_takeWhile_imp hmem

/-- What is taken off are the operators down to the first opening parenthesis, or all of them. -/
theorem unwound_eq {waiting below : List Operator} (hpending : r.pending = waiting ++ below)
    (hwaiting : .leftParen ∉ waiting) (hbelow : ∀ op ∈ below.head?, op = .leftParen) :
    r.unwound = waiting := by
  have hinside : ∀ op ∈ waiting, decide (op ≠ .leftParen) = true := fun op hop =>
    decide_eq_true fun heq => hwaiting (heq ▸ hop)
  rw [unwound, hpending, List.takeWhile_append_of_pos hinside]
  cases below with
  | nil => exact List.append_nil waiting
  | cons op below =>
    rw [hbelow op rfl, List.takeWhile_cons_of_neg (by simp), List.append_nil]

/-- A closing parenthesis outputs what is taken off, and drops the opening one under it. -/
theorem unwound_of_step (h : step r (.operator .rightParen) = .ok r') :
    r.pending = r.unwound ++ .leftParen :: r'.pending ∧ r'.output = r.emit r.unwound := by
  cases steps_of_eq_ok h with
  | operand hvalue => exact absurd rfl hvalue.1
  | operator hop => cases hop
  | @rightParen waiting below hopened hpending hwaiting =>
    -- the parenthesis that is dropped is the first from the top, so it bounds what is taken off
    rw [unwound_eq hpending hwaiting (by simp)]
    exact ⟨hpending, rfl⟩

/-- At the end the whole stack is taken off. -/
theorem unwound_of_finish {values : List Value} (h : r.finish = .ok values) :
    r.pending = r.unwound ∧ values = (r.emit r.unwound).toList := by
  rw [finish] at h
  split at h
  · cases h
  · rename_i hopen
    rw [unwound_eq (List.append_nil r.pending).symm hopen (by simp)]
    exact ⟨rfl, (Except.ok.inj h).symm⟩

end Reordering

open Reordering

/-- **The operators wait in tiers.** After each token the stack holds no closing parenthesis. In a
stretch of it without an opening one the precedences increase strictly from the bottom to the top,
so it is of five operators at most, and the whole stack of no more than six for each parenthesis
that is open and five. What a closing parenthesis or the end of the tokens takes off comes down to
the latest opening parenthesis, each operator binding at least as tightly as those after it. -/
theorem operators_wait_in_tiers {read : List Value} {r : Reordering}
    (hrun : read.foldlM step .start = .ok r) :
    .rightParen ∉ r.pending ∧
    (∀ tier, tier <:+: r.pending → .leftParen ∉ tier →
      tier.Pairwise Operator.BindsTighter ∧ tier.length ≤ 5) ∧
    (∃ depth, depth + read.count (.operator .rightParen) = read.count (.operator .leftParen) ∧
      r.pending.length ≤ 6 * depth + 5) ∧
    r.unwound.Pairwise (fun earlier later => later.precedence ≤ earlier.precedence) ∧
    (∀ r', step r (.operator .rightParen) = .ok r' →
      r.pending = r.unwound ++ .leftParen :: r'.pending ∧ r'.output = r.emit r.unwound) ∧
    ∀ values, r.finish = .ok values →
      r.pending = r.unwound ∧ values = (r.emit r.unwound).toList := by
  have htiered := tiered_of_run hrun
  have hunwound : Tiered r.unwound := htiered.of_isInfix (List.takeWhile_prefix _).isInfix
  refine ⟨htiered.opening, fun tier htier hparen => ?_,
    ⟨r.depth, depth_of_run hrun, htiered.length_le_depth⟩,
    ?_, fun _ => unwound_of_step, fun _ => unwound_of_finish⟩
  · exact ⟨(htiered.of_isInfix htier).pairwise hparen,
      (htiered.of_isInfix htier).length_le_five hparen⟩
  · exact (hunwound.pairwise r.leftParen_not_mem_unwound).imp Nat.le_of_lt

/-- Two tiers of five with an open parenthesis between them, so that the stack is as long as it can
be. At the end of the group the upper tier is taken off, the product first. -/
theorem operators_wait_in_tiers_of_five :
    let way : List Value := [.string "a", .operator .or, .string "b", .operator .equal,
      .string "c", .operator .lessThan, .string "d", .operator .add, .string "e",
      .operator .multiply]
    ∃ r, (way ++ .operator .leftParen :: way).foldlM step .start = .ok r ∧
      .rightParen ∉ r.pending ∧ r.pending.length = 6 * 1 + 5 ∧
      r.unwound = [.multiply, .add, .lessThan, .equal, .or] ∧
      r.unwound.Pairwise Operator.BindsTighter ∧
      ∃ r', step r (.operator .rightParen) = .ok r' ∧ r'.pending = r.pending.drop 6 ∧
        r'.output = r.emit r.unwound := by
  intro way
  have hrun : (way ++ .operator .leftParen :: way).foldlM step .start = .ok _ := rfl
  obtain ⟨hopening, htiers, -, -, hstep, -⟩ := operators_wait_in_tiers hrun
  refine ⟨_, hrun, hopening, rfl, rfl, (htiers _ ?_ ?_).1, _, rfl, rfl, (hstep _ rfl).2⟩
  · exact (List.takeWhile_prefix _).isInfix
  · exact leftParen_not_mem_unwound _

end RuleLang
