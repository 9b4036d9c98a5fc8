import Mathlib.Data.List.Induction
import RuleLang.Proofs.InfixGrammar
import RuleLang.Proofs.Reading

/-!
# Matching parentheses

The tokens of an expression have matching parentheses: the number of open ones never falls below
zero and is zero at the end (`Lexed`, `lexed_of_tokenize`). This is a fact about a counter. What the
proofs on parsing need is the nesting behind it (`Balanced`), so that they can go from a group to
what is inside it.

Between two tokens there are as many pieces of nested tokens as parentheses are open, and one more
(`Opens`). A token either goes to the last piece, or begins a new one, or makes a group of the last
piece and puts it behind the last but one.
-/

namespace RuleLang

/-- What every list of tokens has that an expression is read as: matching parentheses, and no token
of unknown kind. -/
structure Lexed (tokens : List Value) : Prop where
  /-- The number of open parentheses goes from zero to zero. -/
  matched : tokens.foldlM depthAfter? 0 = some 0
  known : ∀ token ∈ tokens, token.kind ≠ .unknown

/-- **Nested tokens.** -/
inductive Balanced : List Value → Prop where
  | nothing : Balanced []
  | single {tokens : List Value} {value : Value} (htokens : Balanced tokens)
      (hvalue : value.isParen = false) : Balanced (tokens ++ [value])
  | group {tokens inner : List Value} (htokens : Balanced tokens) (hinner : Balanced inner) :
      Balanced (tokens ++ parenthesized inner)

/-- Tokens with some parentheses open at their end, and nested tokens before, between and behind
these. -/
inductive Opens : Nat → List Value → Prop where
  | balanced {tokens : List Value} (htokens : Balanced tokens) : Opens 0 tokens
  | leftParen {depth : Nat} {tokens inner : List Value} (htokens : Opens depth tokens)
      (hinner : Balanced inner) : Opens (depth + 1) (tokens ++ .operator .leftParen :: inner)

/-- A token that is no parenthesis opens and closes nothing. -/
theorem depthAfter?_of_isParen_eq_false {value : Value} (h : value.isParen = false) (depth : Nat) :
    depthAfter? depth value = some depth := by
  cases value with
  | operator op =>
    cases op with
    | leftParen => cases h
    | rightParen => cases h
    | _ => rfl
  | _ => rfl

/-! ### From the counter to the nesting -/

namespace Opens

/-- What can stand behind nested tokens can stand behind the last piece. -/
theorem append {depth : Nat} {tokens more : List Value} (h : Opens depth tokens)
    (hmore : ∀ {inner}, Balanced inner → Balanced (inner ++ more)) :
    Opens depth (tokens ++ more) := by
  cases h with
  | balanced htokens => exact .balanced (hmore htokens)
  | leftParen htokens hinner =>
    rw [List.append_assoc, List.cons_append]
    exact .leftParen htokens (hmore hinner)

/-- One token further, as the counter allows it. -/
theorem step {depth depth' : Nat} {tokens : List Value} {value : Value} (h : Opens depth tokens)
    (hvalue : depthAfter? depth value = some depth') : Opens depth' (tokens ++ [value]) := by
  cases hparen : value.isParen with
  | false =>
    rw [depthAfter?_of_isParen_eq_false hparen] at hvalue
    cases hvalue
    exact h.append fun hinner => hinner.single hparen
  | true =>
    rcases Value.isParen_eq_true_iff.mp hparen with rfl | rfl
    · cases hvalue
      exact .leftParen h .nothing
    · cases h with
      | balanced htokens => cases hvalue
      | @leftParen depth tokens inner htokens hinner =>
        -- the last piece becomes a group, and this goes behind the last but one
        cases hvalue
        have hgroup := htokens.append fun hbefore => hbefore.group hinner
        rwa [parenthesized, List.cons_append, ← List.cons_append, ← List.append_assoc] at hgroup

end Opens

/-- Tokens that the counter gets through leave as many parentheses open as it says. -/
theorem opens_of_foldlM_depthAfter? {tokens : List Value} {depth : Nat}
    (h : tokens.foldlM depthAfter? 0 = some depth) : Opens depth tokens := by
  -- from the right: the counter starts at zero, and the pieces grow at their end
  induction tokens using List.reverseRecOn generalizing depth with
  | nil =>
    cases h
    exact .balanced .nothing
  | append_singleton tokens value ih =>
    rw [List.foldlM_append] at h
    obtain ⟨before, hbefore, hvalue⟩ := Option.bind_eq_some_iff.mp h
    simp only [List.foldlM_cons, List.foldlM_nil, bind_pure] at hvalue
    exact (ih hbefore).step hvalue

/-- **Matching parentheses nest.** -/
theorem Lexed.balanced {tokens : List Value} (h : Lexed tokens) : Balanced tokens := by
  cases opens_of_foldlM_depthAfter? h.matched with
  | balanced htokens => exact htokens

/-! ### The counter -/

/-- What holds of the empty list holds of all front parts if it does of those that have the first
element in front. -/
theorem forall_prefix_cons_iff {α : Type} {motive : List α → Prop} {a : α} {as : List α}
    (hnil : motive []) :
    (∀ front, front <+: a :: as → motive front) ↔ ∀ front, front <+: as → motive (a :: front) := by
  constructor
  · exact fun h front hfront => h _ ((List.prefix_cons_inj a).mpr hfront)
  · intro h front hfront
    rcases List.prefix_cons_iff.mp hfront with rfl | ⟨inner, rfl, hinner⟩
    · exact hnil
    · exact h inner hinner

theorem count_paren_cons {value : Value} (h : value.isParen = false) (values : List Value) :
    (value :: values).count (.operator .leftParen) = values.count (.operator .leftParen) ∧
      (value :: values).count (.operator .rightParen) = values.count (.operator .rightParen) := by
  constructor <;> refine List.count_cons_of_ne ?_ <;> rintro rfl <;> cases h

/-- **The counter** ends at the difference, and gets there if nowhere more is closed than opened. -/
theorem foldlM_depthAfter?_eq_some_iff {tokens : List Value} {depth depth' : Nat} :
    tokens.foldlM depthAfter? depth = some depth' ↔
      (∀ before, before <+: tokens → before.count (.operator .rightParen)
        ≤ depth + before.count (.operator .leftParen)) ∧
      depth' + tokens.count (.operator .rightParen)
        = depth + tokens.count (.operator .leftParen) := by
  induction tokens generalizing depth with
  | nil =>
    simp only [List.foldlM_nil, List.prefix_nil, forall_eq, List.count_nil]
    change some depth = some depth' ↔ _
    simp [eq_comm]
  | cons token tokens ih =>
    -- the empty front part asks for nothing, so every front part has the token in front
    have hfront : (∀ before, before <+: token :: tokens → before.count (.operator .rightParen)
        ≤ depth + before.count (.operator .leftParen)) ↔
        ∀ before, before <+: tokens → (token :: before).count (.operator .rightParen)
          ≤ depth + (token :: before).count (.operator .leftParen) :=
      forall_prefix_cons_iff (Nat.zero_le _)
    rw [hfront, List.foldlM_cons]
    cases hparen : token.isParen with
    | false =>
      rw [depthAfter?_of_isParen_eq_false hparen]
      simp only [(count_paren_cons hparen _).1, (count_paren_cons hparen _).2]
      exact ih
    | true =>
      rcases Value.isParen_eq_true_iff.mp hparen with rfl | rfl
      · change tokens.foldlM depthAfter? (depth + 1) = _ ↔ _
        have hne : Value.operator .leftParen ≠ .operator .rightParen := by decide
        simp only [ih, List.count_cons_self, List.count_cons_of_ne hne]
        refine and_congr (forall_congr' fun before => forall_congr' fun _ => ?_) ?_
        · omega
        · omega
      · have hne : Value.operator .rightParen ≠ .operator .leftParen := by decide
        -- where none is open the counter stops, and in front of all others more is closed than
        -- opened
        by_cases hzero : depth = 0
        · rw [depthAfter?, if_pos hzero]
          refine iff_of_false (fun h => by cases h) ?_
          rintro ⟨h, -⟩
          have hnil := h [] List.nil_prefix
          simp [hzero] at hnil
        · rw [depthAfter?, if_neg hzero]
          change tokens.foldlM depthAfter? (depth - 1) = _ ↔ _
          simp only [ih, List.count_cons_self, List.count_cons_of_ne hne]
          refine and_congr (forall_congr' fun before => forall_congr' fun _ => ?_) ?_
          · omega
          · omega

/-- Tokens that start with more parentheses open end with as many more. -/
theorem foldlM_depthAfter?_add {tokens : List Value} {depth depth' : Nat}
    (h : tokens.foldlM depthAfter? depth = some depth') (more : Nat) :
    tokens.foldlM depthAfter? (depth + more) = some (depth' + more) := by
  rw [foldlM_depthAfter?_eq_some_iff] at h ⊢
  obtain ⟨hnested, hbalanced⟩ := h
  refine ⟨fun before hbefore => ?_, by omega⟩
  have hle := hnested before hbefore
  omega

/-- A group opens and closes nothing if this is so of what is inside it. -/
theorem foldlM_depthAfter?_parenthesized {tokens : List Value}
    (h : tokens.foldlM depthAfter? 0 = some 0) (depth : Nat) :
    (parenthesized tokens).foldlM depthAfter? depth = some depth := by
  have hinner : tokens.foldlM depthAfter? (depth + 1) = some (depth + 1) := by
    have hmore := foldlM_depthAfter?_add h (depth + 1)
    rwa [Nat.zero_add] at hmore
  rw [parenthesized, List.cons_append, List.foldlM_cons]
  change (tokens ++ [Value.operator .rightParen]).foldlM depthAfter? (depth + 1) = _
  rw [List.foldlM_append, hinner]
  rfl

/-- An operator between two lists of tokens opens and closes nothing. -/
theorem foldlM_depthAfter?_application {op : Operator} (hop : op.isParen = false)
    {tokens more : List Value} {depth depth' depth'' : Nat}
    (h : tokens.foldlM depthAfter? depth = some depth')
    (hmore : more.foldlM depthAfter? depth' = some depth'') :
    (tokens ++ .operator op :: more).foldlM depthAfter? depth = some depth'' := by
  have hparen : (Value.operator op).isParen = false := hop
  rw [List.foldlM_append, h]
  change (Value.operator op :: more).foldlM depthAfter? depth' = _
  rw [List.foldlM_cons, depthAfter?_of_isParen_eq_false hparen]
  exact hmore

/-! ### The tokens of an expression -/

/-- **The tokens of an expression** match in their parentheses and are all of known kind. -/
theorem lexed_of_tokenize {expression : String} {tokens : List Value}
    (h : (tokenize expression).outcome = .ok tokens) : Lexed tokens := by
  obtain ⟨-, hread, hmatched⟩ := tokenize_eq_ok_iff.mp h
  exact ⟨hmatched, forall_mem_of_readPieces?
    (fun _ _ _ _ hfirst => kind_ne_unknown_of_readPiece? hfirst) hread⟩

end RuleLang
