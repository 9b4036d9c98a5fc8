import Mathlib.Data.List.Count
import RuleLang.Proofs.KindInference
import RuleLang.Proofs.ReorderingSteps

/-!
# Nothing is lost between tokens and tree

The reordering moves operators and drops parentheses. Apart from that, all tokens of known kind are
in its output, whether they make an expression or not: the operands in the order in which they came,
and each operator as often as it came (`parsing_keeps_operands_and_operators`). What is kept from
token to token is about the output and the stack together (`Reordering.Keeps`), since an operator is
on the stack before it is output.

From postfix order to the tree and back there is no loss at all (`ofPostfix_inverts_toPostfix`). So
the tree has the operands as its leaves, and what a check without evaluation prints is the postfix
order that the tree was built from.
-/

namespace RuleLang

/-- Whether a value is an operator that is applied, and no parenthesis. -/
def Value.isApplied : Value → Bool
  | .operator op => !op.isParen
  | _ => false

/-- The values at the leaves, from left to right. -/
def Expr.leaves : Expr → List Value
  | literal value => [value]
  | binary _ left right => left.leaves ++ right.leaves

variable {tokens values : List Value} {value : Value} {r r' : Reordering}

/-! ### Output and stack -/

/-- **What the state keeps of some tokens.** -/
structure Reordering.Keeps (r : Reordering) (tokens : List Value) : Prop where
  /-- The operands are output, in their order. -/
  operands : r.output.toList.filter (·.kind ≠ .operator) = tokens.filter (·.IsOperand)
  /-- An operator is output or waits. -/
  operators : ∀ op, op.isParen = false →
    r.output.toList.count (.operator op) + r.pending.count op = tokens.count (.operator op)
  noParen : ∀ value ∈ r.output.toList, value.isParen = false
  opening : .rightParen ∉ r.pending

/-- Each operator counts as its token does. -/
theorem count_map_operator (ops : List Operator) (op : Operator) :
    (ops.map Value.operator).count (.operator op) = ops.count op :=
  List.count_map_of_injective ops Value.operator (fun _ _ h => Value.operator.inj h) op

/-- Operators are no operands. -/
theorem filter_map_operator (ops : List Operator) :
    (ops.map Value.operator).filter (·.kind ≠ .operator) = [] := by
  simp [Value.kind]

/-- An operand is no operator. -/
theorem count_operand (h : value.IsOperand) (op : Operator) : [value].count (.operator op) = 0 := by
  refine List.count_eq_zero.mpr fun hmem => h.1 ?_
  rw [← List.mem_singleton.mp hmem, Value.kind]

namespace Reordering.Keeps

/-- In front of all tokens there is nothing to keep. -/
theorem start : Keeps .start [] :=
  ⟨rfl, fun _ _ => rfl, by simp [Reordering.start], by simp [Reordering.start]⟩

/-- Operators that go from the stack to the output are kept. -/
theorem emit (h : r.Keeps tokens) {waiting below : List Operator}
    (hpending : r.pending = waiting ++ below) (hwaiting : .leftParen ∉ waiting) (opened : Bool) :
    Keeps ⟨r.emit waiting, below, opened⟩ tokens := by
  obtain ⟨hoperands, hoperators, hnoParen, hopening⟩ := h
  rw [hpending] at hoperators hopening
  refine ⟨?_, fun op hop => ?_, fun value hvalue => ?_, fun hmem => ?_⟩
  · rw [toList_emit, List.filter_append, filter_map_operator, List.append_nil]
    exact hoperands
  · rw [toList_emit, List.count_append, count_map_operator, Nat.add_assoc, ← List.count_append]
    exact hoperators op hop
  · rw [toList_emit] at hvalue
    rcases List.mem_append.mp hvalue with houtput | hmap
    · exact hnoParen value houtput
    · -- neither of the parentheses is among them
      obtain ⟨op, hop, rfl⟩ := List.mem_map.mp hmap
      rw [Bool.eq_false_iff, Ne, Value.isParen_eq_true_iff]
      rintro (heq | heq)
      · exact hwaiting (Value.operator.inj heq ▸ hop)
      · exact hopening (List.mem_append_left below (Value.operator.inj heq ▸ hop))
  · exact hopening (List.mem_append_right waiting hmem)

/-- A parenthesis is neither an operand nor an operator that is kept. -/
theorem concat_paren (h : r.Keeps tokens) {op : Operator} (hop : op.isParen = true)
    (houtput : r'.output = r.output) (hopening : .rightParen ∉ r'.pending)
    (hpending : ∀ other, other.isParen = false → r'.pending.count other = r.pending.count other) :
    r'.Keeps (tokens ++ [.operator op]) := by
  refine ⟨?_, fun other hother => ?_, ?_, hopening⟩
  · rw [houtput, h.operands]
    simp [Value.IsOperand, Value.kind]
  · -- an operator that is kept is no parenthesis, and so another one
    have hne : other ≠ op := by
      rintro rfl
      rw [hop] at hother
      cases hother
    rw [houtput, hpending other hother, h.operators other hother]
    simp [Ne.symm hne]
  · rw [houtput]
    exact h.noParen

/-- **One token further.** -/
theorem step (h : r.Keeps tokens) (hstep : Steps r value (.ok r')) :
    r'.Keeps (tokens ++ [value]) := by
  cases hstep with
  | unknown text =>
    refine ⟨?_, fun op hop => ?_, h.noParen, h.opening⟩
    · rw [h.operands]
      simp [Value.IsOperand, Value.kind]
    · rw [h.operators op hop]
      simp
  | operand hvalue =>
    have houtput : (r.advance [value] [] false).output.toList = r.output.toList ++ [value] := by
      simp [advance]
    refine ⟨?_, fun op hop => ?_, ?_, h.opening⟩
    · rw [houtput, List.filter_append, List.filter_append, h.operands]
      simp [hvalue, hvalue.1]
    · rw [houtput, List.count_append, List.count_append, count_operand hvalue,
        ← h.operators op hop]
      rfl
    · rw [houtput]
      exact List.forall_mem_append.mpr
        ⟨h.noParen, List.forall_mem_singleton.mpr hvalue.isParen_eq_false⟩
  | leftParen =>
    refine h.concat_paren rfl (by simp [advance]) (by simp [advance, h.opening]) ?_
    intro other hother
    refine List.count_cons_of_ne ?_
    rintro rfl
    cases hother
  | @rightParen waiting below hopened hpending hwaiting =>
    -- what waits in front of the opening parenthesis goes out first, then that is dropped
    have hemit := h.emit hpending hwaiting false
    refine hemit.concat_paren rfl rfl (fun hmem => hemit.opening (List.mem_cons_of_mem _ hmem)) ?_
    intro other hother
    refine (List.count_cons_of_ne ?_).symm
    rintro rfl
    cases hother
  | @operator op waiting below hop hpending hwaiting hbelow =>
    -- what goes out binds as tightly as an operator at least, which a parenthesis does not
    have hnone : .leftParen ∉ waiting := leftParen_not_mem fun w hw =>
      Nat.le_trans (Operator.precedence_pos hop) (hwaiting w hw)
    have hemit := h.emit hpending hnone false
    refine ⟨?_, fun other hother => ?_, hemit.noParen, fun hmem => ?_⟩
    · rw [hemit.operands]
      simp [Value.IsOperand, Value.kind]
    · have hcount := hemit.operators other hother
      simp only [List.count_append, List.count_cons, List.count_nil] at hcount ⊢
      simp only [beq_iff_eq, Value.operator.injEq]
      omega
    · rcases List.mem_cons.mp hmem with rfl | hmem
      · cases hop
      · exact hemit.opening hmem

end Reordering.Keeps

/-! ### The whole output -/

/-- At the end the whole stack goes to the output, so the output alone keeps the tokens. -/
theorem exists_keeps_of_postfixOrder (h : postfixOrder tokens = .ok values) :
    ∃ r : Reordering, r.Keeps tokens ∧ r.pending = [] ∧ r.output.toList = values := by
  obtain ⟨r, hrun, hfinish⟩ := bind_eq_ok_iff.mp h
  have hkeeps := Reordering.run_induction Reordering.Keeps.start Reordering.Keeps.step hrun
  rw [Reordering.finish] at hfinish
  split at hfinish
  · cases hfinish
  · rename_i hopen
    exact ⟨⟨r.emit r.pending, [], false⟩, hkeeps.emit (List.append_nil _).symm hopen false, rfl,
      Except.ok.inj hfinish⟩

/-- Lists that have each applied operator equally often have the same applied operators. -/
theorem perm_filter_isApplied {as bs : List Value}
    (h : ∀ op, op.isParen = false → as.count (.operator op) = bs.count (.operator op)) :
    (as.filter Value.isApplied).Perm (bs.filter Value.isApplied) := by
  -- what is no applied operator does not count on either side
  rw [List.perm_iff_count]
  intro value
  cases happlied : value.isApplied with
  | false =>
    have hnone (cs : List Value) : (cs.filter Value.isApplied).count value = 0 := by
      refine List.count_eq_zero.mpr fun hmem => ?_
      rw [(List.mem_filter.mp hmem).2] at happlied
      cases happlied
    rw [hnone, hnone]
  | true =>
    rw [List.count_filter happlied, List.count_filter happlied]
    cases value with
    | operator op => exact h op (by simpa [Value.isApplied] using happlied)
    | _ => cases happlied

/-- Without parentheses, all operators are applied. -/
theorem filter_kind_eq_isApplied (h : ∀ value ∈ values, value.isParen = false) :
    values.filter (·.kind = .operator) = values.filter Value.isApplied := by
  refine List.filter_congr fun value hmem => ?_
  have hparen := h value hmem
  cases value with
  | operator op =>
    have hop : op.isParen = false := hparen
    simp [Value.kind, Value.isApplied, hop]
  | _ => rfl

namespace Expr

variable {expr : Expr}

/-- The operands of the postfix order are the leaves of the tree. -/
theorem filter_toPostfix (h : expr.WellFormed) :
    expr.toPostfix.filter (·.kind ≠ .operator) = expr.leaves := by
  -- on the tree: the operator at the end of the postfix order is filtered out
  induction expr with
  | literal value =>
    have hvalue : value.kind ≠ .operator := h
    simp [toPostfix, leaves, hvalue]
  | binary op left right ihl ihr =>
    rw [toPostfix, List.filter_append, List.filter_append, ihl h.2.1, ihr h.2.2]
    simp [leaves, Value.kind]

/-- The applied operators of the postfix order are the operators of the tree. -/
theorem countP_toPostfix (h : expr.WellFormed) :
    expr.toPostfix.countP Value.isApplied = expr.operatorCount := by
  induction expr with
  | literal value =>
    have hvalue : value.isApplied = false := by
      cases value with
      | operator op => exact absurd rfl h
      | _ => rfl
    simp [toPostfix, operatorCount, hvalue]
  | binary op left right ihl ihr =>
    have hop : (Value.operator op).isApplied = true := by simp [Value.isApplied, h.1]
    rw [toPostfix, List.countP_append, List.countP_append, ihl h.2.1, ihr h.2.2, operatorCount,
      List.countP_singleton, if_pos hop]
    omega

end Expr

/-- The operands are output in their order and the operators in some order, and no parenthesis. -/
theorem filter_of_postfixOrder (h : postfixOrder tokens = .ok values) :
    values.filter (·.kind ≠ .operator) = tokens.filter (·.IsOperand) ∧
      (values.filter Value.isApplied).Perm (tokens.filter Value.isApplied) ∧
      ∀ value ∈ values, value.isParen = false := by
  obtain ⟨r, hkeeps, hpending, rfl⟩ := exists_keeps_of_postfixOrder h
  refine ⟨hkeeps.operands, perm_filter_isApplied fun op hop => ?_, hkeeps.noParen⟩
  have hcount := hkeeps.operators op hop
  rwa [hpending, List.count_nil, Nat.add_zero] at hcount

/-- The operands are the leaves of the tree, and the operators are its operators. -/
theorem leaves_of_parse {expr : Expr} (h : (parse tokens).outcome = .ok expr) :
    expr.leaves = tokens.filter (·.IsOperand) ∧
      expr.operatorCount = tokens.countP Value.isApplied := by
  rw [outcome_parse] at h
  obtain ⟨values, hvalues, hbuild⟩ := bind_eq_ok_iff.mp h
  obtain ⟨hwell, rfl⟩ := Expr.ofPostfix_eq_ok_iff.mp hbuild
  obtain ⟨hoperands, hoperators, -⟩ := filter_of_postfixOrder hvalues
  -- both are read off the postfix order, which the tree is built from
  rw [← Expr.filter_toPostfix hwell, ← Expr.countP_toPostfix hwell, List.countP_eq_length_filter,
    List.countP_eq_length_filter]
  exact ⟨hoperands, hoperators.length_eq⟩

/-- No operand is lost on the way to the tree. -/
theorem mem_toPostfix_of_parse {expr : Expr} (h : (parse tokens).outcome = .ok expr)
    (hmem : value ∈ tokens) (hvalue : value.IsOperand) : value ∈ expr.toPostfix := by
  have hwell : expr.WellFormed := by
    rw [outcome_parse] at h
    obtain ⟨values, -, hbuild⟩ := bind_eq_ok_iff.mp h
    exact (Expr.ofPostfix_eq_ok_iff.mp hbuild).1
  -- operands are leaves, and leaves stand in the postfix order
  have hleaf : value ∈ expr.leaves := by
    rw [(leaves_of_parse h).1]
    exact List.mem_filter.mpr ⟨hmem, decide_eq_true hvalue⟩
  rw [← Expr.filter_toPostfix hwell] at hleaf
  exact (List.mem_filter.mp hleaf).1

/-- **The reordering keeps every operand and every operator.** The operands are output in their
order, the operators in some order, and no parenthesis. So where there is a tree, the operands are
its leaves from left to right, and it has as many operators as there are among the tokens. -/
theorem parsing_keeps_operands_and_operators (tokens : List Value) :
    (∀ values, postfixOrder tokens = .ok values →
      values.filter (·.kind ≠ .operator) = tokens.filter (·.IsOperand) ∧
      (values.filter (·.kind = .operator)).Perm (tokens.filter Value.isApplied) ∧
      ∀ value ∈ values, value.isParen = false) ∧
    ∀ expr, (parse tokens).outcome = .ok expr →
      expr.leaves = tokens.filter (·.IsOperand) ∧
      expr.operatorCount = tokens.countP Value.isApplied := by
  refine ⟨fun values hvalues => ?_, fun expr => leaves_of_parse⟩
  obtain ⟨hoperands, hoperators, hparens⟩ := filter_of_postfixOrder hvalues
  rw [filter_kind_eq_isApplied hparens]
  exact ⟨hoperands, hoperators, hparens⟩

/-- The tokens `+ "a" ? ("b" -) "c"` are no expression, and yet nothing of them is lost: they are
read as `("a" - "b") + "c"`, without the `?` of unknown kind. -/
theorem parsing_keeps_misplaced_tokens :
    ∃ tokens values expr, tokens = [.operator .add, .string "a", .unknown "?", .operator .leftParen,
        .string "b", .operator .subtract, .operator .rightParen, .string "c"] ∧
      postfixOrder tokens = .ok values ∧
      values.filter (·.kind ≠ .operator) = tokens.filter (·.IsOperand) ∧
      (values.filter (·.kind = .operator)).Perm (tokens.filter Value.isApplied) ∧
      (parse tokens).outcome = .ok expr ∧ expr.text = "((\"a\" - \"b\") + \"c\")" ∧
      expr.leaves = [.string "a", .string "b", .string "c"] ∧ expr.operatorCount = 2 := by
  obtain ⟨hreordered, hparse⟩ := parsing_keeps_operands_and_operators [.operator .add, .string "a",
    .unknown "?", .operator .leftParen, .string "b", .operator .subtract, .operator .rightParen,
    .string "c"]
  obtain ⟨hoperands, hoperators, -⟩ := hreordered _ rfl
  obtain ⟨hleaves, hcount⟩ := hparse _ rfl
  exact ⟨_, _, _, rfl, rfl, hoperands, hoperators, rfl, by decide +kernel, hleaves, hcount⟩

/-! ### Postfix order and tree -/

/-- **Building and flattening invert each other.** A well-formed tree is built from its postfix
order, and a sequence that a tree is built from is the postfix order of that tree. So trees are
built from just the postfix orders of well-formed trees, and the tree of tokens has the postfix
order that the tokens were put in, which is what a check without evaluation prints. -/
theorem ofPostfix_inverts_toPostfix :
    (∀ expr : Expr, expr.WellFormed → Expr.ofPostfix expr.toPostfix = .ok expr) ∧
    (∀ values expr, Expr.ofPostfix values = .ok expr → expr.toPostfix = values) ∧
    (∀ values, (∃ expr, Expr.ofPostfix values = .ok expr) ↔
      ∃ expr : Expr, expr.WellFormed ∧ expr.toPostfix = values) ∧
    (∀ tokens expr, (parse tokens).outcome = .ok expr →
      postfixOrder tokens = .ok expr.toPostfix) ∧
    ∀ (options : CheckOptions) (expression : String) (passed : Report),
      options.parseOnly = true → (report options expression).outcome = .ok passed →
      ∃ tokens values, (tokenize expression).outcome = .ok tokens ∧
        postfixOrder tokens = .ok values ∧ passed.line = Value.literals " " values := by
  have hparse {tokens : List Value} {expr : Expr} (h : (parse tokens).outcome = .ok expr) :
      postfixOrder tokens = .ok expr.toPostfix := by
    rw [outcome_parse] at h
    obtain ⟨values, hvalues, hbuild⟩ := bind_eq_ok_iff.mp h
    rw [hvalues, (Expr.ofPostfix_eq_ok_iff.mp hbuild).2]
  refine ⟨fun expr hwell => Expr.ofPostfix_eq_ok_iff.mpr ⟨hwell, rfl⟩,
    fun values expr h => (Expr.ofPostfix_eq_ok_iff.mp h).2,
    fun values => exists_congr fun expr => Expr.ofPostfix_eq_ok_iff,
    fun tokens expr => hparse, fun options expression passed hoptions hpassed => ?_⟩
  -- a check without evaluation prints the postfix order of the tree that it parses
  rw [outcome_report_of_parseOnly hoptions] at hpassed
  obtain ⟨tokens, htokens, hpassed⟩ := bind_eq_ok_iff.mp hpassed
  obtain ⟨expr, hexpr, hpassed⟩ := bind_eq_ok_iff.mp hpassed
  cases hpassed
  exact ⟨tokens, expr.toPostfix, htokens, hparse hexpr, rfl⟩

/-- The tree of `true||"a"=="b"` is built from its postfix order again, and that is what is printed
for it. -/
theorem ofPostfix_inverts_toPostfix_of_equality :
    let expr := Expr.binary .or (.literal (.boolean true))
      (.binary .equal (.literal (.string "a")) (.literal (.string "b")))
    let tokens := expr.infixOrder
    expr.WellFormed ∧ Expr.ofPostfix expr.toPostfix = .ok expr ∧
      (tokenize "true||\"a\"==\"b\"").outcome = .ok tokens ∧
      (parse tokens).outcome = .ok expr ∧ postfixOrder tokens = .ok expr.toPostfix ∧
      ∃ passed values, (report { parseOnly := true } "true||\"a\"==\"b\"").outcome = .ok passed ∧
        postfixOrder tokens = .ok values ∧ passed.line = Value.literals " " values := by
  intro expr tokens
  obtain ⟨hbuild, -, -, hparse, hreport⟩ := ofPostfix_inverts_toPostfix
  have hwell : expr.WellFormed := by simp [expr, Expr.WellFormed, Value.kind, Operator.isParen]
  have htokens : (tokenize "true||\"a\"==\"b\"").outcome = .ok tokens := by decide +kernel
  have hexpr : (parse tokens).outcome = .ok expr := rfl
  have hpassed : (report { parseOnly := true } "true||\"a\"==\"b\"").outcome
      = .ok (.parsed "true||\"a\"==\"b\"" expr) := by
    rw [outcome_report_of_parseOnly rfl, htokens]
    rfl
  obtain ⟨_, values, hsame, hvalues, hline⟩ := hreport _ _ _ rfl hpassed
  rw [htokens] at hsame
  cases hsame
  exact ⟨hwell, hbuild expr hwell, htokens, hexpr, hparse tokens expr hexpr, _, values, hpassed,
    hvalues, hline⟩

end RuleLang
