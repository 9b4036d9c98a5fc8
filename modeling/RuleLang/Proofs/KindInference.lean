import RuleLang.Check
import RuleLang.Proofs.Acceptance
import RuleLang.Proofs.Simulation

/-!
# The kind of an expression

What kind of value an expression has can be told without evaluating it. Each operator is defined for
some kinds of operands and gives one kind of result (`Operator.operandKinds`,
`Operator.resultKind`), so the kinds of the leaves give the kind of the whole (`Expr.infer`).

The table is right about one application, and that is a statement on all operators and all values:
operands of kinds that the table has give a value of the kind of the result, or an error that lies
in what the operands hold, not in their kinds (`sound_combine`); other operands are not supported
(`combine_of_not_mem`). By induction on the tree the inferred kind is right about every expression
(`Expr.sound_eval`), and an expression without one has no value
(`Expr.exists_error_of_infer_eq_none`).

Errors of structure are of another sort. They are found while the tokens are put into postfix order
and the tree is built, so once an expression parses none of them is left for the evaluation, on
either engine (`kind_of_infer_and_errors_of_stages`).
-/

namespace RuleLang

namespace Operator

/-- The kinds of operands, left and right, that an operator is defined for. -/
def operandKinds : Operator → List (Kind × Kind)
  | add | subtract | multiply | divide => [(.number, .number)]
  | equal | notEqual =>
    [(.number, .number), (.boolean, .boolean), (.datetime, .datetime), (.string, .string)]
  | greaterThan | greaterEqual | lessThan | lessEqual =>
    [(.number, .number), (.datetime, .datetime)]
  | contains | notContains =>
    [(.stringArray, .string), (.stringArray, .stringArray), (.string, .string)]
  | and | or => [(.boolean, .boolean)]
  | leftParen | rightParen => []

/-- The kind of what an operator gives. -/
def resultKind : Operator → Kind
  | add | subtract | multiply | divide => .number
  | _ => .boolean

/-- What operators give is a number or a truth value. -/
theorem resultKind_eq (op : Operator) : op.resultKind = .number ∨ op.resultKind = .boolean := by
  cases op <;> decide

end Operator

/-- The kind of an expression, `none` if an operator in it has operands of kinds that it is not
defined for. A leaf has the kind of its value. -/
def Expr.infer : Expr → Option Kind
  | literal value => some value.kind
  | binary op left right => do
    let kinds := (← left.infer, ← right.infer)
    if kinds ∈ op.operandKinds then some op.resultKind else none

/-- An error that lies in what operands hold, and not in their kinds. -/
inductive Error.OfContents : Error → Prop where
  | divideByZero : OfContents .divideByZero
  | overflow (op : Operator) (left right : Decimal) : OfContents (.overflow op left right)
  | unreadableArray {text : String} {failure : Json.Failure}
      (h : Json.readStrings text.toList = .error failure) :
      OfContents (.malformed (.unreadableArray text failure))

/-- The outcome is a value of the given kind, or an error in what operands hold. -/
def Sound (kind : Kind) (outcome : Except Error Value) : Prop :=
  (∃ value, outcome = .ok value ∧ value.kind = kind) ∨ ∃ e, outcome = .error e ∧ e.OfContents

/-- A value of the first kind goes on, and an error stays what it is. -/
theorem Sound.bind {kind kind' : Kind} {outcome : Except Error Value}
    {next : Value → Except Error Value} (h : Sound kind outcome)
    (hnext : ∀ value, value.kind = kind → Sound kind' (next value)) :
    Sound kind' (outcome >>= next) := by
  rcases h with ⟨value, rfl, hkind⟩ | ⟨e, rfl, he⟩
  · exact hnext value hkind
  · exact Or.inr ⟨e, rfl, he⟩

/-! ### Each family of operators -/

/-- Equality is decided for the kinds of its row in the table, and for no others. -/
theorem isSome_same? (a b : Value) :
    (same? a b).isSome ↔ (a.kind, b.kind) ∈ Operator.equal.operandKinds := by
  cases a <;> cases b <;> simp [same?, Value.kind, Operator.operandKinds]

/-- Order is decided for the kinds of its row in the table, and for no others. -/
theorem isSome_order? (a b : Value) :
    (order? a b).isSome ↔ (a.kind, b.kind) ∈ Operator.lessThan.operandKinds := by
  cases a <;> cases b <;> simp [order?, Value.kind, Operator.operandKinds]

/-- Connectives are decided for the kinds of their row in the table, and for no others. -/
theorem isSome_connect? (f : Bool → Bool → Bool) (a b : Value) :
    (connect? f a b).isSome ↔ (a.kind, b.kind) ∈ Operator.and.operandKinds := by
  cases a <;> cases b <;> simp [connect?, Value.kind, Operator.operandKinds]

/-- What is decided is a truth value. -/
theorem sound_verdict {op : Operator} {a b : Value} {held : Option Bool} (h : held.isSome) :
    Sound .boolean (verdict op a b held) := by
  obtain ⟨result, rfl⟩ := Option.isSome_iff_exists.mp h
  exact Or.inl ⟨.boolean result, rfl, rfl⟩

/-- What is not decided is an error that names both operands. -/
theorem verdict_of_not_isSome {op : Operator} {a b : Value} {held : Option Bool}
    (h : ¬ held.isSome) : verdict op a b held = .error (.unsupported op a b) := by
  rw [Option.not_isSome_iff_eq_none.mp h]
  rfl

/-- A string array has items, or cannot be read. -/
theorem arrayItems_cases (text : String) :
    (∃ items, arrayItems text = .ok items) ∨ ∃ e, arrayItems text = .error e ∧ e.OfContents := by
  unfold arrayItems
  cases h : Json.readStrings text.toList with
  | ok items => exact Or.inl ⟨items, rfl⟩
  | error failure => exact Or.inr ⟨_, rfl, .unreadableArray h⟩

/-- Membership is decided for the kinds that have it, unless an array cannot be read. -/
theorem contains?_of_mem {a b : Value} (h : (a.kind, b.kind) ∈ Operator.contains.operandKinds) :
    (∃ held, contains? a b = .ok (some held)) ∨ ∃ e, contains? a b = .error e ∧ e.OfContents := by
  unfold contains?
  split
  · rename_i array item
    rcases arrayItems_cases array with ⟨items, hitems⟩ | ⟨e, hitems, he⟩
    · rw [hitems]
      exact Or.inl ⟨_, rfl⟩
    · rw [hitems]
      exact Or.inr ⟨e, rfl, he⟩
  · -- the array on the left is read first, and its error hides that of the other
    rename_i array wanted
    rcases arrayItems_cases array with ⟨items, hitems⟩ | ⟨e, hitems, he⟩
    · rw [hitems]
      rcases arrayItems_cases wanted with ⟨others, hothers⟩ | ⟨e, hothers, he⟩
      · rw [hothers]
        exact Or.inl ⟨_, rfl⟩
      · rw [hothers]
        exact Or.inr ⟨e, rfl, he⟩
    · rw [hitems]
      exact Or.inr ⟨e, rfl, he⟩
  · exact Or.inl ⟨_, rfl⟩
  · -- the table has no other kinds of operands
    exfalso
    cases a <;> cases b <;> simp_all [Value.kind, Operator.operandKinds]

/-- What is made of a decided membership is all that there is to show, since the errors before it
lie in the arrays. -/
theorem sound_bind_contains? {a b : Value} {kind : Kind} {next : Option Bool → Except Error Value}
    (h : (a.kind, b.kind) ∈ Operator.contains.operandKinds)
    (hnext : ∀ held, Sound kind (next (some held))) : Sound kind (contains? a b >>= next) := by
  rcases contains?_of_mem h with ⟨held, hheld⟩ | ⟨e, hheld, he⟩
  · rw [hheld]
    exact hnext held
  · rw [hheld]
    exact Or.inr ⟨e, rfl, he⟩

/-- Membership is not decided for other kinds. -/
theorem contains?_of_not_mem {a b : Value}
    (h : (a.kind, b.kind) ∉ Operator.contains.operandKinds) : contains? a b = .ok none := by
  unfold contains?
  split
  · exact absurd (by simp [Value.kind, Operator.operandKinds]) h
  · exact absurd (by simp [Value.kind, Operator.operandKinds]) h
  · exact absurd (by simp [Value.kind, Operator.operandKinds]) h
  · rfl

/-- Of two numbers a number is computed, unless there is an overflow. -/
theorem sound_compute (op : Operator) (f : Decimal → Decimal → Option Decimal) {a b : Value}
    (h : (a.kind, b.kind) ∈ [(Kind.number, Kind.number)]) :
    Sound .number (compute op f a b) := by
  unfold compute
  split
  · split
    · exact Or.inl ⟨_, rfl, rfl⟩
    · exact Or.inr ⟨_, rfl, .overflow op _ _⟩
  · -- the table has no other kinds of operands here
    exfalso
    cases a <;> cases b <;> simp_all [Value.kind]

/-- Of other values nothing is computed. -/
theorem compute_of_not_mem (op : Operator) (f : Decimal → Decimal → Option Decimal) {a b : Value}
    (h : (a.kind, b.kind) ∉ [(Kind.number, Kind.number)]) :
    compute op f a b = .error (.unsupported op a b) := by
  unfold compute
  split
  · exact absurd (by simp [Value.kind]) h
  · rfl

/-- The quotient of two numbers is a number, unless there is an overflow or the divisor is zero. -/
theorem sound_quotient (op : Operator) {a b : Value}
    (h : (a.kind, b.kind) ∈ [(Kind.number, Kind.number)]) :
    Sound .number (quotient op a b) := by
  unfold quotient
  split
  · split
    · exact Or.inr ⟨_, rfl, .divideByZero⟩
    · exact sound_compute op _ h
  · exfalso
    cases a <;> cases b <;> simp_all [Value.kind]

theorem quotient_of_not_mem (op : Operator) {a b : Value}
    (h : (a.kind, b.kind) ∉ [(Kind.number, Kind.number)]) :
    quotient op a b = .error (.unsupported op a b) := by
  unfold quotient
  split
  · exact absurd (by simp [Value.kind]) h
  · rfl

/-! ### One application -/

/-- **Operands of kinds that the table has.** -/
theorem sound_combine {op : Operator} {a b : Value} (h : (a.kind, b.kind) ∈ op.operandKinds) :
    Sound op.resultKind (combine op a b) := by
  -- family by family, each with its own row of the table
  cases op with
  | add | subtract | multiply => exact sound_compute _ _ h
  | divide => exact sound_quotient _ h
  | equal => exact sound_verdict ((isSome_same? a b).mpr h)
  | notEqual =>
    -- decided wherever equality is
    refine sound_verdict ?_
    rw [Option.isSome_map]
    exact (isSome_same? a b).mpr h
  | greaterThan | greaterEqual | lessThan | lessEqual =>
    refine sound_verdict ?_
    rw [Option.isSome_map]
    exact (isSome_order? a b).mpr h
  | contains | notContains => exact sound_bind_contains? h fun held => sound_verdict rfl
  | and | or => exact sound_verdict ((isSome_connect? _ a b).mpr h)
  | leftParen | rightParen => cases h

/-- **Operands of other kinds.** -/
theorem combine_of_not_mem {op : Operator} {a b : Value} (h : (a.kind, b.kind) ∉ op.operandKinds) :
    combine op a b = .error (.unsupported op a b) := by
  cases op with
  | add | subtract | multiply => exact compute_of_not_mem _ _ h
  | divide => exact quotient_of_not_mem _ h
  | equal => exact verdict_of_not_isSome fun hsome => h ((isSome_same? a b).mp hsome)
  | notEqual =>
    refine verdict_of_not_isSome fun hsome => h ((isSome_same? a b).mp ?_)
    rwa [Option.isSome_map] at hsome
  | greaterThan | greaterEqual | lessThan | lessEqual =>
    refine verdict_of_not_isSome fun hsome => h ((isSome_order? a b).mp ?_)
    rwa [Option.isSome_map] at hsome
  | contains | notContains =>
    rw [combine, contains?_of_not_mem h]
    rfl
  | and | or => exact verdict_of_not_isSome fun hsome => h ((isSome_connect? _ a b).mp hsome)
  | leftParen | rightParen => rfl

/-- The kind of what an operator gives is known from the operator alone. -/
theorem kind_of_combine {op : Operator} {a b value : Value} (h : combine op a b = .ok value) :
    value.kind = op.resultKind := by
  by_cases hkinds : (a.kind, b.kind) ∈ op.operandKinds
  · -- there is a value, so of the two ways to be sound it is the first
    rcases sound_combine hkinds with ⟨value', hvalue', hkind⟩ | ⟨e, he, -⟩
    · rw [h] at hvalue'
      cases hvalue'
      exact hkind
    · rw [h] at he
      cases he
  · -- operands of other kinds give no value
    rw [combine_of_not_mem hkinds] at h
    cases h

/-- The errors of an application lie in the operands or in their kinds. -/
theorem combine_eq_error {op : Operator} {a b : Value} {e : Error}
    (h : combine op a b = .error e) : e.OfContents ∨ e.kind = .unsupportedOperation := by
  by_cases hkinds : (a.kind, b.kind) ∈ op.operandKinds
  · rcases sound_combine hkinds with ⟨value, hvalue, -⟩ | ⟨e', he', hcontents⟩
    · rw [h] at hvalue
      cases hvalue
    · rw [h] at he'
      cases he'
      exact Or.inl hcontents
  · rw [combine_of_not_mem hkinds] at h
    cases h
    exact Or.inr rfl

/-! ### A tree -/

namespace Expr

/-- Both parts are evaluated, the left one first, and then the operator is applied. -/
theorem outcome_eval_binary (op : Operator) (left right : Expr) :
    (binary op left right).eval.outcome
      = left.eval.outcome >>= fun a => right.eval.outcome >>= fun b => combine op a b := by
  simp only [eval_binary, Logged.outcome_bind, outcome_apply]

/-- **The inferred kind is that of the value**, if there is one. -/
theorem sound_eval {expr : Expr} {kind : Kind} (h : expr.infer = some kind) :
    Sound kind expr.eval.outcome := by
  induction expr generalizing kind with
  | literal value =>
    cases h
    exact Or.inl ⟨value, rfl, rfl⟩
  | binary op left right ihl ihr =>
    simp only [infer, Option.bind_eq_bind, Option.bind_eq_some_iff] at h
    obtain ⟨leftKind, hleft, rightKind, hright, htable⟩ := h
    rw [outcome_eval_binary]
    refine (ihl hleft).bind fun a ha => (ihr hright).bind fun b hb => ?_
    subst ha hb
    -- two values of the kinds that the table is asked about
    split at htable
    · rename_i hkinds
      cases htable
      exact sound_combine hkinds
    · cases htable

/-- **Without an inferred kind there is no value.** -/
theorem exists_error_of_infer_eq_none {expr : Expr} (h : expr.infer = none) :
    ∃ e, expr.eval.outcome = .error e := by
  induction expr with
  | literal value => cases h
  | binary op left right ihl ihr =>
    rw [outcome_eval_binary]
    -- the part without a kind fails, or each part has one and the root has no row in the table
    cases hleft : left.infer with
    | none =>
      obtain ⟨e, he⟩ := ihl hleft
      exact ⟨e, by rw [he]; rfl⟩
    | some leftKind =>
      rcases sound_eval hleft with ⟨a, ha, rfl⟩ | ⟨e, he, -⟩
      · rw [ha]
        cases hright : right.infer with
        | none =>
          obtain ⟨e, he⟩ := ihr hright
          exact ⟨e, by rw [he]; rfl⟩
        | some rightKind =>
          rcases sound_eval hright with ⟨b, hb, rfl⟩ | ⟨e, he, -⟩
          · rw [hb]
            have hkinds : (a.kind, b.kind) ∉ op.operandKinds := by
              simpa [infer, hleft, hright] using h
            exact ⟨_, combine_of_not_mem hkinds⟩
          · exact ⟨e, by rw [he]; rfl⟩
      · exact ⟨e, by rw [he]; rfl⟩

/-- Evaluation finds no error of structure. -/
theorem eval_eq_error {expr : Expr} {e : Error} (h : expr.eval.outcome = .error e) :
    e.OfContents ∨ e.kind = .unsupportedOperation := by
  induction expr with
  | literal value => cases h
  | binary op left right ihl ihr =>
    rw [outcome_eval_binary] at h
    -- the error is that of the left part, of the right part or of the application
    rcases bind_eq_error_iff.mp h with hleft | ⟨a, -, h⟩
    · exact ihl hleft
    · rcases bind_eq_error_iff.mp h with hright | ⟨b, -, hroot⟩
      · exact ihr hright
      · exact combine_eq_error hroot

/-- A value is a leaf, or what an operator gives. -/
theorem HasValue.eq_literal_or_resultKind {expr : Expr} {value : Value} (h : expr.HasValue value) :
    expr = literal value ∨ ∃ op : Operator, value.kind = op.resultKind := by
  cases expr with
  | literal leaf =>
    cases h
    exact Or.inl rfl
  | binary op left right =>
    rw [HasValue, outcome_eval_binary] at h
    obtain ⟨a, -, h⟩ := bind_eq_ok_iff.mp h
    obtain ⟨b, -, hroot⟩ := bind_eq_ok_iff.mp h
    exact Or.inr ⟨op, kind_of_combine hroot⟩

end Expr

/-! ### From the text -/

/-- Of the errors in what operands hold, only that of an array that cannot be read is one
of form. -/
theorem Error.OfContents.eq_unreadableArray {e : Error} (h : e.OfContents)
    (hkind : e.kind = .malformedExpression) :
    ∃ text failure, Json.readStrings text.toList = .error failure ∧
      e = .malformed (.unreadableArray text failure) := by
  cases h with
  | divideByZero => cases hkind
  | overflow op left right => cases hkind
  | unreadableArray hread => exact ⟨_, _, hread, rfl⟩

/-- None of them is an error of an empty text or of parentheses. -/
theorem Error.OfContents.kind_ne {e : Error} (h : e.OfContents) :
    e.kind ≠ .emptyExpression ∧ e.kind ≠ .mismatchedParentheses := by
  cases h <;> simp [kind]

/-- The value of an expression that parses is no operator and not of unknown kind. -/
theorem Expr.HasValue.isOperand {tokens : List Value} {expr : Expr} {value : Value}
    (h : expr.HasValue value) (htokens : Lexed tokens)
    (hparse : (parse tokens).outcome = .ok expr) : value.IsOperand := by
  rcases h.eq_literal_or_resultKind with rfl | ⟨op, hkind⟩
  · -- a leaf is a token, and the tree is well-formed
    have hmem := htokens.toPostfix_subset hparse (List.mem_singleton_self value)
    exact ⟨(htokens.parse_eq_ok_iff.mp hparse).1, htokens.known value hmem⟩
  · rw [Value.IsOperand, hkind]
    cases op <;> decide

/-- Without evaluation a report is on the tree of the tokens. -/
theorem outcome_report_of_parseOnly {options : CheckOptions} (h : options.parseOnly = true)
    (expression : String) :
    (report options expression).outcome = (tokenize expression).outcome >>= fun tokens =>
      (parse tokens).outcome >>= fun expr => .ok (.parsed expression expr) := by
  rw [report, if_pos h]
  simp only [Logged.outcome_bind, Logged.outcome_pure]

/-- **A report** is on the tree of the tokens, or on the value. -/
theorem report_eq_ok_iff {options : CheckOptions} {expression : String} {found : Report} :
    (report options expression).outcome = .ok found ↔
      (options.parseOnly = true ∧ ∃ tokens expr, (tokenize expression).outcome = .ok tokens ∧
        (parse tokens).outcome = .ok expr ∧ found = .parsed expression expr) ∨
      (options.parseOnly = false ∧ ∃ value,
        (evaluate options.engine expression).outcome = .ok value ∧
        found = .evaluated expression value) := by
  -- the option decides which of the two it can be
  cases hparseOnly : options.parseOnly with
  | true =>
    rw [outcome_report_of_parseOnly hparseOnly, bind_eq_ok_iff]
    simp only [bind_eq_ok_iff, Except.ok.injEq, true_and, Bool.true_eq_false, false_and, or_false]
    constructor
    · rintro ⟨tokens, htokens, expr, hexpr, rfl⟩
      exact ⟨tokens, expr, htokens, hexpr, rfl⟩
    · rintro ⟨tokens, expr, htokens, hexpr, rfl⟩
      exact ⟨tokens, htokens, expr, hexpr, rfl⟩
  | false =>
    rw [report, if_neg (by simp [hparseOnly])]
    simp only [Logged.outcome_bind, Logged.outcome_note, Logged.outcome_pure, bind_eq_ok_iff,
      Except.ok.injEq, Bool.false_eq_true, false_and, false_or, true_and]
    constructor
    · rintro ⟨value, hvalue, -, rfl⟩
      exact ⟨value, hvalue, rfl⟩
    · rintro ⟨value, hvalue, rfl⟩
      exact ⟨value, hvalue, (), rfl⟩

/-- **Kinds are sound, and the stages find errors of their own.** An expression with an inferred
kind has a value of that kind, or fails for what its operands hold; one without has no value. If an
expression passes the check that only parses it, neither engine reports an error of structure
for it, and its value is neither an operator nor of unknown kind. If it does not pass, the tree
engine reports the error of the check. -/
theorem kind_of_infer_and_errors_of_stages :
    (∀ expr : Expr, (∀ kind, expr.infer = some kind → Sound kind expr.eval.outcome) ∧
      (expr.infer = none → ∃ e, expr.eval.outcome = .error e)) ∧
    ∀ (options : CheckOptions) (expression : String), options.parseOnly = true →
      (∀ passed, (report options expression).outcome = .ok passed → ∀ engine,
        (∀ value, (evaluate engine expression).outcome = .ok value →
          value.kind ≠ .unknown ∧ value.kind ≠ .operator) ∧
        ∀ e, (evaluate engine expression).outcome = .error e →
          e.kind ≠ .emptyExpression ∧ e.kind ≠ .mismatchedParentheses ∧
          (e.kind = .malformedExpression → ∃ text failure,
            Json.readStrings text.toList = .error failure ∧
            e = .malformed (.unreadableArray text failure))) ∧
      ∀ e, (report options expression).outcome = .error e →
        (evaluate .tree expression).outcome = .error e := by
  refine ⟨fun expr => ⟨fun kind => Expr.sound_eval, Expr.exists_error_of_infer_eq_none⟩, ?_⟩
  intro options expression hoptions
  rw [outcome_report_of_parseOnly hoptions]
  constructor
  · intro passed hpassed engine
    obtain ⟨tokens, htokens, hpassed⟩ := bind_eq_ok_iff.mp hpassed
    obtain ⟨expr, hparse, -⟩ := bind_eq_ok_iff.mp hpassed
    -- once there is a tree, either engine ends as its evaluation does
    rw [outcome_evaluate_of_parse htokens hparse]
    constructor
    · intro value hvalue
      have hoperand := Expr.HasValue.isOperand hvalue (lexed_of_tokenize htokens) hparse
      exact ⟨hoperand.2, hoperand.1⟩
    · intro e he
      rcases Expr.eval_eq_error he with hcontents | hkind
      · exact ⟨hcontents.kind_ne.1, hcontents.kind_ne.2, hcontents.eq_unreadableArray⟩
      · rw [hkind]
        exact ⟨by simp, by simp, fun h => by cases h⟩
  · intro e he
    -- the tree engine goes through the stages of the check before it evaluates
    have hstages : (evaluate .tree expression).outcome
        = (tokenize expression).outcome >>= fun tokens =>
          (parse tokens).outcome >>= fun expr => expr.eval.outcome := by
      simp only [evaluate, Logged.outcome_bind]
    rw [hstages]
    rcases bind_eq_error_iff.mp he with htokens | ⟨tokens, htokens, he⟩
    · rw [htokens]
      rfl
    · rw [htokens]
      rcases bind_eq_error_iff.mp he with hparse | ⟨expr, -, h⟩
      · change (parse tokens).outcome >>= _ = _
        rw [hparse]
        rfl
      · cases h

/-- The array has an escape that does not exist, which the evaluation finds and the check does not;
the parenthesis too many is found by both. -/
theorem kind_of_infer_and_errors_of_stages_unreadable_array :
    Sound .boolean (Expr.binary .contains (.literal (.stringArray "[\"\\x\"]"))
      (.literal (.string "a"))).eval.outcome ∧
    (∃ text failure, Json.readStrings text.toList = .error failure ∧
      (evaluate .stack "[\"\\x\"] ## \"a\"").outcome
        = .error (.malformed (.unreadableArray text failure))) ∧
    (evaluate .tree "1)").outcome = .error (.mismatched (.unopenedAt 1)) := by
  obtain ⟨hkinds, hstages⟩ := kind_of_infer_and_errors_of_stages
  refine ⟨(hkinds _).1 _ rfl, ?_, ?_⟩
  · have htokens : (tokenize "[\"\\x\"] ## \"a\"").outcome
        = .ok [.stringArray "[\"\\x\"]", .operator .contains, .string "a"] := by
      decide +kernel
    have hpassed : (report { parseOnly := true } "[\"\\x\"] ## \"a\"").outcome
        = .ok (.parsed "[\"\\x\"] ## \"a\"" (.binary .contains
          (.literal (.stringArray "[\"\\x\"]")) (.literal (.string "a")))) := by
      rw [outcome_report_of_parseOnly rfl, htokens]
      rfl
    have herror : (evaluate .stack "[\"\\x\"] ## \"a\"").outcome
        = .error (.malformed (.unreadableArray "[\"\\x\"]" ⟨.invalidEscape, 2⟩)) := by
      decide +kernel
    obtain ⟨-, herrors⟩ := (hstages _ _ rfl).1 _ hpassed .stack
    obtain ⟨text, failure, hread, hsame⟩ := (herrors _ herror).2.2 rfl
    rw [hsame] at herror
    exact ⟨text, failure, hread, herror⟩
  · refine (hstages { parseOnly := true } _ rfl).2 _ ?_
    have htokens : (tokenize "1)").outcome = .error (.mismatched (.unopenedAt 1)) := by
      decide +kernel
    rw [outcome_report_of_parseOnly rfl, htokens]
    rfl

end RuleLang
