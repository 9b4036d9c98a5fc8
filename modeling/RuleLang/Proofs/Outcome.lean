import RuleLang.Evaluation

/-!
# Outcomes of computations in a row

A computation ends in a value or an error, and a row of them in the value of the last one or in the
error of the first that fails. `bind_eq_ok_iff` and `bind_eq_error_iff` take a row apart on either
end. `Logged.outcome_bind` says that the notes of a computation have no part in how it ends, so the
same two lemmas serve for computations that note something, and the stages of an evaluation can be
read as a row of plain functions (`outcome_parse`, `outcome_evaluate`).
-/

namespace RuleLang

variable {ε α β : Type}

/-- Two computations in a row end in a value just where the first ends in one and the second,
given it, does. -/
theorem bind_eq_ok_iff {x : Except ε α} {f : α → Except ε β} {b : β} :
    x >>= f = .ok b ↔ ∃ a, x = .ok a ∧ f a = .ok b := by
  cases x with
  | error e =>
    constructor
    · intro h
      cases h
    · rintro ⟨a, h, -⟩
      cases h
  | ok a =>
    constructor
    · intro h
      exact ⟨a, rfl, h⟩
    · rintro ⟨a', h, hf⟩
      cases h
      exact hf

/-- Two computations in a row end in an error that is that of the first, or of the second behind a
first that ends in a value. -/
theorem bind_eq_error_iff {x : Except ε α} {f : α → Except ε β} {e : ε} :
    x >>= f = .error e ↔ x = .error e ∨ ∃ a, x = .ok a ∧ f a = .error e := by
  cases x with
  | error e' =>
    constructor
    · intro h
      cases h
      exact Or.inl rfl
    · rintro (h | ⟨a, h, -⟩)
      · cases h
        rfl
      · cases h
  | ok a =>
    constructor
    · intro h
      exact Or.inr ⟨a, rfl, h⟩
    · rintro (h | ⟨a', h, hf⟩)
      · cases h
      · cases h
        exact hf

/-- An outcome is a value or an error, and not both. -/
theorem exists_error_iff {x : Except ε α} : (∃ e, x = .error e) ↔ ∀ a, x ≠ .ok a := by
  cases x with
  | error e => simp
  | ok a => simp

/-- The value of a mapped outcome comes from the value of the outcome. -/
theorem exists_of_map_eq_ok {f : α → β} {x : Except ε α} {b : β} (h : f <$> x = .ok b) :
    ∃ a, x = .ok a ∧ b = f a := by
  cases x with
  | error e => cases h
  | ok a => exact ⟨a, rfl, (Except.ok.inj h).symm⟩

/-- Mapping a function over the value leaves the errors. -/
theorem map_eq_error_iff {f : α → β} {x : Except ε α} {e : ε} :
    f <$> x = .error e ↔ x = .error e := by
  cases x with
  | error e' =>
    constructor
    · intro h
      exact congrArg _ (Except.error.inj h)
    · intro h
      exact congrArg _ (Except.error.inj h)
  | ok a =>
    constructor
    · intro h
      cases h
    · intro h
      cases h

/-- Replacing the error leaves the values. -/
theorem mapError_eq_ok_iff {ε' : Type} {x : Except ε α} {f : ε → ε'} {a : α} :
    x.mapError f = .ok a ↔ x = .ok a := by
  cases x with
  | error e =>
    constructor
    · intro h
      cases h
    · intro h
      cases h
  | ok b =>
    constructor
    · intro h
      exact congrArg _ (Except.ok.inj h)
    · intro h
      exact congrArg _ (Except.ok.inj h)

namespace Logged

@[simp] theorem outcome_pure (a : α) : (pure a : Logged ε α).outcome = .ok a := rfl

@[simp] theorem outcome_ofExcept (x : Except ε α) : (ofExcept x).outcome = x := rfl

@[simp] theorem outcome_note (record : Record) : (note record : Logged ε Unit).outcome = .ok () :=
  rfl

/-- What is noted has no part in how a row of computations ends. -/
@[simp] theorem outcome_bind (x : Logged ε α) (f : α → Logged ε β) :
    (x >>= f).outcome = x.outcome >>= fun a => (f a).outcome := by
  -- an error and a value are joined by different rules, and the records stand apart in both
  obtain ⟨records, _ | a⟩ := x <;> rfl

/-- A computation that ends in a value is followed by the next one. -/
theorem bind_eq_of_ok {x : Logged ε α} {a : α} (h : x.outcome = .ok a) (f : α → Logged ε β) :
    x >>= f = ⟨x.records ++ (f a).records, (f a).outcome⟩ := by
  obtain ⟨records, outcome⟩ := x
  subst h
  exact bind_of_ok records a f

/-- After an error nothing more is noted. -/
theorem bind_eq_of_error {x : Logged ε α} {e : ε} (h : x.outcome = .error e)
    (f : α → Logged ε β) : x >>= f = ⟨x.records, .error e⟩ := by
  obtain ⟨records, outcome⟩ := x
  subst h
  exact bind_of_error records e f

end Logged

/-! ### The stages of an evaluation -/

/-- The notes on the postfix order are no part of it. -/
@[simp] theorem outcome_reorder (tokens : List Value) :
    (reorder tokens).outcome = postfixOrder tokens := by
  rw [reorder, Logged.outcome_bind, Logged.outcome_ofExcept]
  -- the order is noted only where there is one
  cases postfixOrder tokens <;> rfl

/-- Parsing brings the tokens into postfix order and builds the tree from it. -/
theorem outcome_parse (tokens : List Value) :
    (parse tokens).outcome = postfixOrder tokens >>= Expr.ofPostfix := by
  simp only [parse, Logged.outcome_bind, outcome_reorder, Logged.outcome_ofExcept]

/-- The two engines part once the tokens are in postfix order. -/
theorem outcome_evaluate (expression : String) :
    (evaluate .tree expression).outcome = ((tokenize expression).outcome >>= postfixOrder >>=
      fun values => Expr.ofPostfix values >>= fun expr => expr.eval.outcome) ∧
    (evaluate .stack expression).outcome = ((tokenize expression).outcome >>= postfixOrder >>=
      fun values => (evalPostfix values).outcome) := by
  -- the records drop out, and what is left is the row of stages
  constructor
  · simp only [evaluate, Logged.outcome_bind, outcome_parse, bind_assoc]
  · simp only [evaluate, Logged.outcome_bind, outcome_reorder, bind_assoc]

end RuleLang
