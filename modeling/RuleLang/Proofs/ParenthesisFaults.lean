import RuleLang.Proofs.Parentheses
import RuleLang.Proofs.ReorderingSteps

/-!
# Faults in parentheses

When the reordering rejects tokens, and how, said of the tokens alone and of any tokens at all. A
closing parenthesis is out of place behind an opening one, and where none is open (`Faulty`). The
first that is out of place decides (`FirstFault`). If none is, it is left to see whether all that
were opened are closed. Tokens of unknown kind count as if they were not there.

As long as no closing parenthesis is out of place, two things about the tokens are kept in the state
(`Reordering.Follows`): how many parentheses are open, as the opening ones among the operators that
wait, and whether the latest token is an opening one. That is all a closing parenthesis asks for, so
the two ways of being out of place are the two ways of being rejected.

The parentheses of an expression match by the counter that its tokens are read with, and both ways
to count agree. So on its tokens the reordering rejects `()` and nothing else
(`postfixOrder_of_lexed`).
-/

namespace RuleLang

/-- The tokens that are not of unknown kind. -/
def knownTokens (tokens : List Value) : List Value :=
  tokens.filter (·.kind ≠ .unknown)

/-- Whether a closing parenthesis behind some tokens would directly follow an opening one. -/
def FollowsOpening (before : List Value) : Prop :=
  before.getLast? = some (.operator .leftParen)

/-- Whether a closing parenthesis behind some tokens would have no open one left to match. -/
def NoneOpen (before : List Value) : Prop :=
  before.count (.operator .leftParen) ≤ before.count (.operator .rightParen)

/-- Whether a closing parenthesis behind some tokens is out of place. -/
def Faulty (before : List Value) : Prop :=
  FollowsOpening before ∨ NoneOpen before

/-- No closing parenthesis is out of place. -/
def NoFault (tokens : List Value) : Prop :=
  ∀ before, before ++ [.operator .rightParen] <+: tokens → ¬ Faulty before

/-- **The first closing parenthesis that is out of place** stands behind the tokens `before`. -/
structure FirstFault (before tokens : List Value) : Prop where
  closes : before ++ [.operator .rightParen] <+: tokens
  faulty : Faulty before
  first : NoFault before

variable {tokens before : List Value} {value : Value} {r : Reordering}

/-- It is enough to look at the tokens one by one. -/
theorem noFault_iff : NoFault tokens ↔ ∀ n < tokens.length,
    tokens[n]? = some (.operator .rightParen) → ¬ Faulty (tokens.take n) := by
  constructor
  · intro h n hn hclosing
    obtain ⟨_, hget⟩ := List.getElem?_eq_some_iff.mp hclosing
    refine h (tokens.take n) ?_
    rw [← hget, ← List.take_succ_eq_append_getElem hn]
    exact List.take_prefix (n + 1) tokens
  · rintro h before ⟨after, rfl⟩
    have hfault := h before.length (by simp)
    rw [List.append_assoc, List.take_left, List.getElem?_append_right (Nat.le_refl _)] at hfault
    exact hfault (by simp)

instance (before : List Value) : Decidable (FollowsOpening before) :=
  inferInstanceAs (Decidable (before.getLast? = _))

instance (before : List Value) : Decidable (NoneOpen before) :=
  inferInstanceAs (Decidable (_ ≤ _))

instance (before : List Value) : Decidable (Faulty before) :=
  inferInstanceAs (Decidable (_ ∨ _))

instance (tokens : List Value) : Decidable (NoFault tokens) :=
  decidable_of_iff _ noFault_iff.symm

instance (before tokens : List Value) : Decidable (FirstFault before tokens) :=
  decidable_of_iff
    (before ++ [.operator .rightParen] <+: tokens ∧ Faulty before ∧ NoFault before)
    ⟨fun ⟨hcloses, hfaulty, hfirst⟩ => ⟨hcloses, hfaulty, hfirst⟩,
      fun h => ⟨h.closes, h.faulty, h.first⟩⟩

/-! ### The first fault -/

/-- One token more is no fault unless it is a closing parenthesis out of place. -/
theorem noFault_concat (h : NoFault tokens)
    (hvalue : value = .operator .rightParen → ¬ Faulty tokens) : NoFault (tokens ++ [value]) := by
  intro before hbefore
  rcases List.prefix_concat_iff.mp hbefore with heq | hprefix
  · obtain ⟨rfl, hclosing⟩ := List.append_inj' heq rfl
    exact hvalue (List.cons.inj hclosing).1.symm
  · exact h before hprefix

theorem NoFault.of_prefix (h : NoFault tokens) (hbefore : before <+: tokens) : NoFault before :=
  fun earlier hearlier => h earlier (hearlier.trans hbefore)

/-- If a closing parenthesis is out of place, then there is a first. -/
theorem exists_firstFault_or_noFault (tokens : List Value) :
    (∃ before, FirstFault before tokens) ∨ NoFault tokens := by
  induction tokens using List.reverseRecOn with
  | nil =>
    refine Or.inr fun before hbefore => ?_
    simpa using List.prefix_nil.mp hbefore
  | append_singleton tokens value ih =>
    rcases ih with ⟨before, hfirst⟩ | hnone
    · exact Or.inl ⟨before, hfirst.closes.trans (List.prefix_append tokens [value]), hfirst.faulty,
        hfirst.first⟩
    · -- the last token may be the first fault
      by_cases hlast : value = .operator .rightParen ∧ Faulty tokens
      · obtain ⟨rfl, hfaulty⟩ := hlast
        exact Or.inl ⟨tokens, List.prefix_rfl, hfaulty, hnone⟩
      · exact Or.inr (noFault_concat hnone fun hvalue hfaulty => hlast ⟨hvalue, hfaulty⟩)

/-! ### Tokens of unknown kind -/

/-- The reordering passes over tokens of unknown kind. -/
theorem foldlM_step_knownTokens (tokens : List Value) (r : Reordering) :
    tokens.foldlM Reordering.step r = (knownTokens tokens).foldlM Reordering.step r := by
  induction tokens generalizing r with
  | nil => rfl
  | cons token tokens ih =>
    by_cases hunknown : token.kind = .unknown
    · cases token with
      | unknown text => exact ih r
      | _ => cases hunknown
    · have hknown : knownTokens (token :: tokens) = token :: knownTokens tokens :=
        List.filter_cons_of_pos (decide_eq_true hunknown)
      rw [hknown, List.foldlM_cons, List.foldlM_cons]
      exact congrArg _ (funext ih)

/-- **Tokens of unknown kind** have no part in the result. -/
theorem postfixOrder_knownTokens (tokens : List Value) :
    postfixOrder tokens = postfixOrder (knownTokens tokens) := by
  rw [postfixOrder, postfixOrder, foldlM_step_knownTokens]

theorem forall_mem_knownTokens : ∀ token ∈ knownTokens tokens, token.kind ≠ .unknown := by
  simp [knownTokens]

/-! ### What the state knows of the tokens -/

/-- The number of opening parentheses that wait. -/
def Reordering.depth (r : Reordering) : Nat := r.pending.count .leftParen

/-- **The state behind some tokens**, as far as a closing parenthesis asks for it. -/
structure Reordering.Follows (r : Reordering) (tokens : List Value) : Prop where
  depth : r.depth + tokens.count (.operator .rightParen) = tokens.count (.operator .leftParen)
  opened : r.opened = true ↔ FollowsOpening tokens

namespace Reordering

variable {r' : Reordering}

theorem follows_start : Follows .start [] :=
  ⟨rfl, by simp [start, FollowsOpening]⟩

theorem depth_eq_zero_iff : r.depth = 0 ↔ .leftParen ∉ r.pending :=
  List.count_eq_zero

/-- A token is counted as an opening or a closing parenthesis, or not at all. -/
theorem depth_of_steps (h : Steps r value (.ok r')) :
    r'.depth + [value].count (.operator .rightParen)
      = r.depth + [value].count (.operator .leftParen) := by
  cases h with
  | unknown text =>
    have hparen : (Value.unknown text).isParen = false := rfl
    rw [(count_paren_cons hparen []).1, (count_paren_cons hparen []).2]
    rfl
  | operand hvalue =>
    have hparen := hvalue.isParen_eq_false
    rw [(count_paren_cons hparen []).1, (count_paren_cons hparen []).2]
    rfl
  | leftParen =>
    have hother : [Value.operator .leftParen].count (.operator .rightParen) = 0 := by decide
    simp only [Reordering.depth, advance, List.singleton_append, List.count_cons_self,
      List.count_nil, hother]
  | @rightParen waiting below hopened hpending hwaiting =>
    have hother : [Value.operator .rightParen].count (.operator .leftParen) = 0 := by decide
    simp only [Reordering.depth, hpending, List.count_append, List.count_cons_self,
      List.count_eq_zero.mpr hwaiting, List.count_nil, hother]
    omega
  | @operator op waiting below hop hpending hwaiting hbelow =>
    -- no opening parenthesis is output, nor does the operator count as one
    have hnone : .leftParen ∉ waiting := leftParen_not_mem fun w hw =>
      Nat.le_trans (Operator.precedence_pos hop) (hwaiting w hw)
    have hne : op ≠ .leftParen := by
      rintro rfl
      cases hop
    have hparen : (Value.operator op).isParen = false := hop
    rw [(count_paren_cons hparen []).1, (count_paren_cons hparen []).2, Reordering.depth,
      Reordering.depth, hpending, List.count_append, List.count_eq_zero.mpr hnone,
      List.count_cons_of_ne hne, Nat.zero_add]
    rfl

theorem depth_concat
    (h : r.depth + tokens.count (.operator .rightParen) = tokens.count (.operator .leftParen))
    (hsteps : Steps r value (.ok r')) :
    r'.depth + (tokens ++ [value]).count (.operator .rightParen)
      = (tokens ++ [value]).count (.operator .leftParen) := by
  have hstep := depth_of_steps hsteps
  rw [List.count_append, List.count_append]
  omega

/-- Only an opening parenthesis leaves the mark that one was the latest token. -/
theorem opened_of_steps (h : Steps r value (.ok r')) (hknown : value.kind ≠ .unknown) :
    r'.opened = true ↔ value = .operator .leftParen := by
  cases h with
  | unknown text => exact absurd rfl hknown
  | operand hvalue =>
    refine iff_of_false Bool.false_ne_true ?_
    rintro rfl
    exact hvalue.1 rfl
  | leftParen => exact iff_of_true rfl rfl
  | rightParen => exact iff_of_false Bool.false_ne_true (by decide)
  | operator hop =>
    refine iff_of_false Bool.false_ne_true fun heq => ?_
    rw [Value.operator.inj heq] at hop
    cases hop

namespace Follows

/-- No parenthesis is open just where none waits. -/
theorem noneOpen_iff (h : r.Follows tokens) : NoneOpen tokens ↔ .leftParen ∉ r.pending := by
  have hdepth := h.depth
  rw [← depth_eq_zero_iff, NoneOpen]
  omega

/-- A step that succeeds leads to the state behind one token more. -/
theorem concat (h : r.Follows tokens) (hsteps : Steps r value (.ok r'))
    (hknown : value.kind ≠ .unknown) : r'.Follows (tokens ++ [value]) := by
  refine ⟨depth_concat h.depth hsteps, ?_⟩
  rw [opened_of_steps hsteps hknown, FollowsOpening, List.getLast?_concat, Option.some.injEq]

/-- **One token further**, unless it is a closing parenthesis out of place. -/
theorem step (h : r.Follows tokens) (hknown : value.kind ≠ .unknown)
    (hvalue : value = .operator .rightParen → ¬ Faulty tokens) :
    ∃ r', Reordering.step r value = .ok r' ∧ r'.Follows (tokens ++ [value]) := by
  have hsteps := steps r value
  cases hresult : Reordering.step r value with
  | ok r' => exact ⟨r', rfl, h.concat (hresult ▸ hsteps) hknown⟩
  | error e =>
    -- only a closing parenthesis is rejected, behind an opening one or where none is open
    rw [hresult] at hsteps
    cases hsteps with
    | emptyParens hopened => exact absurd (Or.inl (h.opened.mp hopened)) (hvalue rfl)
    | neverOpened hopened hpending =>
      exact absurd (Or.inr (h.noneOpen_iff.mpr hpending)) (hvalue rfl)

end Follows

/-- Where no closing parenthesis is out of place, none is rejected. -/
theorem exists_follows (hknown : ∀ token ∈ tokens, token.kind ≠ .unknown) (h : NoFault tokens) :
    ∃ r, tokens.foldlM Reordering.step .start = .ok r ∧ r.Follows tokens := by
  -- from the right, since the state behind the last token is that of the step before
  induction tokens using List.reverseRecOn with
  | nil => exact ⟨.start, rfl, follows_start⟩
  | append_singleton tokens value ih =>
    obtain ⟨hbefore, hlast⟩ := List.forall_mem_append.mp hknown
    obtain ⟨r, hrun, hr⟩ := ih hbefore (h.of_prefix (List.prefix_append tokens [value]))
    obtain ⟨r', hstep, hr'⟩ := hr.step (hlast value (List.mem_singleton_self value)) fun hvalue =>
      h tokens (hvalue ▸ List.prefix_rfl)
    refine ⟨r', ?_, hr'⟩
    rw [List.foldlM_append, hrun]
    change Reordering.step r value >>= pure = _
    rw [hstep]
    rfl

end Reordering

/-! ### The verdict -/

/-- The error that the first closing parenthesis out of place gives. -/
theorem postfixOrder_of_firstFault (hknown : ∀ token ∈ tokens, token.kind ≠ .unknown)
    (h : FirstFault before tokens) :
    postfixOrder tokens = .error (if FollowsOpening before then .malformed .emptyParentheses
      else .mismatched .neverOpened) := by
  obtain ⟨after, rfl⟩ := h.closes
  -- up to the fault nothing is rejected, so there is a state for it to be rejected in
  obtain ⟨r, hrun, hr⟩ := Reordering.exists_follows
    (fun token hmem => hknown token (by simp [hmem])) h.first
  have hstep : Reordering.step r (.operator .rightParen)
      = .error (if FollowsOpening before then .malformed .emptyParentheses
        else .mismatched .neverOpened) := by
    have hsteps := Reordering.steps r (.operator .rightParen)
    generalize Reordering.step r (.operator .rightParen) = result at hsteps ⊢
    cases hsteps with
    | operand hoperand => exact absurd rfl hoperand.1
    | emptyParens hopened => rw [if_pos (hr.opened.mp hopened)]
    | neverOpened hopened hpending =>
      rw [if_neg fun hfollows => by simp [hr.opened.mpr hfollows] at hopened]
    | rightParen hopened hpending hwaiting =>
      -- a parenthesis is open, and the latest token is not the opening one
      rcases h.faulty with hfollows | hnone
      · rw [hr.opened.mpr hfollows] at hopened
        cases hopened
      · exact absurd (by rw [hpending]; simp) (hr.noneOpen_iff.mp hnone)
    | operator hop => cases hop
  rw [postfixOrder, List.append_assoc, List.foldlM_append, hrun]
  change (Reordering.step r (.operator .rightParen) >>= _) >>= _ = _
  rw [hstep]
  rfl

/-- Without a fault the tokens are rejected only for a parenthesis that stays open. -/
theorem postfixOrder_of_noFault (hknown : ∀ token ∈ tokens, token.kind ≠ .unknown)
    (h : NoFault tokens) :
    if NoneOpen tokens then ∃ values, postfixOrder tokens = .ok values
    else postfixOrder tokens = .error (.mismatched .neverClosed) := by
  obtain ⟨r, hrun, hr⟩ := Reordering.exists_follows hknown h
  have hfinish : postfixOrder tokens = r.finish := by
    rw [postfixOrder, hrun]
    rfl
  rw [hfinish, Reordering.finish]
  split
  · rename_i hopen
    exact ⟨_, if_neg (hr.noneOpen_iff.mp hopen)⟩
  · rename_i hopen
    exact if_pos (not_not.mp fun hnone => hopen (hr.noneOpen_iff.mpr hnone))

namespace Lexed

/-- In an expression a closing parenthesis has one to match. -/
theorem not_noneOpen (h : Lexed tokens) (hcloses : before ++ [.operator .rightParen] <+: tokens) :
    ¬ NoneOpen before := by
  -- counted with the closing one, no more are closed than opened
  have hnested := (foldlM_depthAfter?_eq_some_iff.mp h.matched).1 _ hcloses
  have hother : [Value.operator .rightParen].count (.operator .leftParen) = 0 := by decide
  rw [List.count_append, List.count_append, List.count_singleton_self, hother] at hnested
  rw [NoneOpen]
  omega

theorem noneOpen (h : Lexed tokens) : NoneOpen tokens := by
  have hbalanced := (foldlM_depthAfter?_eq_some_iff.mp h.matched).2
  rw [NoneOpen]
  omega

end Lexed

/-- **On the tokens of an expression** nothing but an empty pair of parentheses is rejected. -/
theorem postfixOrder_of_lexed (h : Lexed tokens) :
    parenthesized [] <:+: tokens ∧ postfixOrder tokens = .error (.malformed .emptyParentheses) ∨
    ¬ parenthesized [] <:+: tokens ∧ ∃ values, postfixOrder tokens = .ok values := by
  rcases exists_firstFault_or_noFault tokens with ⟨before, hfirst⟩ | hnone
  · have hfollows := hfirst.faulty.resolve_right (h.not_noneOpen hfirst.closes)
    have herror := postfixOrder_of_firstFault h.known hfirst
    rw [if_pos hfollows] at herror
    -- the opening parenthesis and the one that closes it are the empty pair
    obtain ⟨front, rfl⟩ := List.getLast?_eq_some_iff.mp hfollows
    obtain ⟨after, hafter⟩ := hfirst.closes
    exact Or.inl ⟨⟨front, after, by simpa [parenthesized] using hafter⟩, herror⟩
  · refine Or.inr ⟨?_, ?_⟩
    · rintro ⟨front, after, rfl⟩
      have hfollows : FollowsOpening (front ++ [.operator .leftParen]) := List.getLast?_concat
      exact hnone _ ⟨after, by simp [parenthesized]⟩ (Or.inl hfollows)
    · have hverdict := postfixOrder_of_noFault h.known hnone
      rwa [if_pos h.noneOpen] at hverdict

/-- **The verdict on any tokens.** Those of unknown kind count as if they were not there. The first
closing parenthesis that is out of place says how the tokens are rejected. Without one they are put
into postfix order, unless a parenthesis stays open. On the tokens of an expression parentheses
match, so nothing is rejected but an empty pair. -/
theorem postfixOrder_verdict :
    (∀ tokens, postfixOrder tokens = postfixOrder (knownTokens tokens)) ∧
    (∀ tokens before, FirstFault before (knownTokens tokens) →
      postfixOrder tokens = .error (if FollowsOpening before then .malformed .emptyParentheses
        else .mismatched .neverOpened)) ∧
    (∀ tokens, (¬ ∃ before, FirstFault before (knownTokens tokens)) →
      if NoneOpen (knownTokens tokens) then ∃ values, postfixOrder tokens = .ok values
      else postfixOrder tokens = .error (.mismatched .neverClosed)) ∧
    ∀ expression tokens, (tokenize expression).outcome = .ok tokens →
      (∀ e, postfixOrder tokens = .error e → e.kind ≠ .mismatchedParentheses) ∧
      ((∃ e, postfixOrder tokens = .error e) ↔ parenthesized [] <:+: tokens) := by
  refine ⟨postfixOrder_knownTokens, fun tokens before hfirst => ?_, fun tokens hnone => ?_,
    fun expression tokens htokens => ?_⟩
  · rw [postfixOrder_knownTokens]
    exact postfixOrder_of_firstFault forall_mem_knownTokens hfirst
  · rw [postfixOrder_knownTokens]
    exact postfixOrder_of_noFault forall_mem_knownTokens
      ((exists_firstFault_or_noFault (knownTokens tokens)).resolve_left hnone)
  · rcases postfixOrder_of_lexed (lexed_of_tokenize htokens) with
      ⟨hempty, herror⟩ | ⟨hempty, values, hvalues⟩
    · rw [herror]
      refine ⟨fun e he => ?_, iff_of_true ⟨_, rfl⟩ hempty⟩
      cases he
      exact fun hkind => by cases hkind
    · rw [hvalues]
      exact ⟨fun e he => (by cases he), iff_of_false (fun ⟨e, he⟩ => by cases he) hempty⟩

/-- The first `)` of `( ? ))` directly follows its `(`, since `?` does not count, and the first of
`"a")()` has none to match, whatever comes behind it. The `(` of `("a"` is never closed. -/
theorem postfixOrder_verdict_three_faults :
    let opening := Value.operator .leftParen
    let closing := Value.operator .rightParen
    FirstFault [opening] (knownTokens [opening, .unknown "?", closing, closing]) ∧
    postfixOrder [opening, .unknown "?", closing, closing] = .error (.malformed .emptyParentheses) ∧
    FirstFault [.string "a"] (knownTokens [.string "a", closing, opening, closing]) ∧
    postfixOrder [.string "a", closing, opening, closing] = .error (.mismatched .neverOpened) ∧
    NoFault (knownTokens [opening, .string "a"]) ∧
    postfixOrder [opening, .string "a"] = .error (.mismatched .neverClosed) ∧
    ∃ tokens e, (tokenize "1+()").outcome = .ok tokens ∧ postfixOrder tokens = .error e := by
  intro opening closing
  obtain ⟨-, hfault, hnone, hexpression⟩ := postfixOrder_verdict
  have hempty : FirstFault [opening] (knownTokens [opening, .unknown "?", closing, closing]) := by
    decide
  have hopened :
      FirstFault [.string "a"] (knownTokens [.string "a", closing, opening, closing]) := by
    decide
  have hclosed : NoFault (knownTokens [opening, .string "a"]) := by decide
  have htokens : (tokenize "1+()").outcome = .ok [.number ⟨1, 0, by decide⟩, .operator .add,
      opening, closing] := by
    decide +kernel
  obtain ⟨e, he⟩ := (hexpression _ _ htokens).2.mpr ⟨[.number ⟨1, 0, by decide⟩, .operator .add],
    [], rfl⟩
  refine ⟨hempty, hfault _ _ hempty, hopened, hfault _ _ hopened, hclosed, ?_, _, e, htokens, he⟩
  exact hnone _ fun ⟨before, hfirst⟩ => hclosed before hfirst.closes hfirst.faulty

end RuleLang
