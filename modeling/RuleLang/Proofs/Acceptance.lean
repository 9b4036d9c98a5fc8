import Mathlib.Data.List.Chain
import RuleLang.Proofs.ParenthesisFaults

/-!
# What the parser accepts

The sentences of the infix grammar can be told from other tokens by looking at neighbours: behind
an operand or a group comes an operator or a closing parenthesis, and behind an operator or an
opening parenthesis comes an operand or a group (`Alternates`, `sentence_iff_alternates`).

The parser looks at neighbours in one case only, that of `()`. Apart from that it puts the tokens in
postfix order wherever they stand, as the grammar `Translates` says, and then counts: the tokens are
accepted when the postfix order is that of a tree (`Lexed.parse_eq_ok_iff`). All other tokens are
rejected as malformed.

So it accepts every sentence, but also tokens out of place for which the count comes out
(`Misplaced`). It accepts sentences alone exactly where there are none
(`parse_accepts_sentences_iff`). An example is `1 2 +`, which is read as `1+2`.
-/

namespace RuleLang

/-- Whether a token is the end of an operand or of a group. -/
def Value.endsOperand : Value → Bool
  | .operator op => op = .rightParen
  | _ => true

/-- Whether a token is the start of an operand or of a group. -/
def Value.startsOperand : Value → Bool
  | .operator op => op = .leftParen
  | _ => true

/-- Whether a token can stand behind another one in a sentence: an operand or a group starts where
none has just ended. -/
def Adjoins (token next : Value) : Prop :=
  next.startsOperand = !token.endsOperand

instance : DecidableRel Adjoins :=
  fun token next => inferInstanceAs (Decidable (next.startsOperand = !token.endsOperand))

/-- **Operands and operators take turns**, also at both ends. -/
def Alternates (tokens : List Value) : Prop :=
  (parenthesized tokens).IsChain Adjoins

instance (tokens : List Value) : Decidable (Alternates tokens) :=
  inferInstanceAs (Decidable ((parenthesized tokens).IsChain Adjoins))

/-- Tokens behind which an operand or a group is due. -/
def AwaitsOperand (tokens : List Value) : Prop :=
  tokens = [] ∨ ∃ before op, Sentence before ∧ op.isParen = false ∧
    tokens = before ++ [.operator op]

/-- Tokens that do not take turns, and all the same translate to the postfix order of a tree. -/
def Misplaced (tokens : List Value) : Prop :=
  ¬ Alternates tokens ∧ ∃ expr : Expr, expr.WellFormed ∧ Translates 1 tokens expr.toPostfix

/-! ### Sentences by their neighbours -/

/-- An operand starts one. -/
theorem Value.IsOperand.startsOperand {value : Value} (h : value.IsOperand) :
    value.startsOperand = true := by
  cases value with
  | operator op => exact absurd rfl h.1
  | _ => rfl

theorem Value.IsOperand.endsOperand {value : Value} (h : value.IsOperand) :
    value.endsOperand = true := by
  cases value with
  | operator op => exact absurd rfl h.1
  | _ => rfl

/-- An operator that is applied starts no operand. -/
theorem startsOperand_of_isParen_eq_false {op : Operator} (h : op.isParen = false) :
    (Value.operator op).startsOperand = false := by
  cases op with
  | leftParen => cases h
  | _ => rfl

theorem endsOperand_of_isParen_eq_false {op : Operator} (h : op.isParen = false) :
    (Value.operator op).endsOperand = false := by
  cases op with
  | rightParen => cases h
  | _ => rfl

/-- Around a group and inside it the neighbours are looked at on their own. -/
theorem isChain_group_iff (before : List Value) {inner after : List Value} :
    (before ++ parenthesized inner ++ after).IsChain Adjoins ↔
      (before ++ [Value.operator .leftParen]).IsChain Adjoins ∧
      (parenthesized inner).IsChain Adjoins ∧
      (Value.operator .rightParen :: after).IsChain Adjoins := by
  have hparts : before ++ parenthesized inner ++ after
      = before ++ .operator .leftParen :: (inner ++ .operator .rightParen :: after) := by
    simp [parenthesized]
  rw [hparts, List.isChain_split, List.isChain_cons_split]
  rfl

/-- In a sentence, operands and operators take turns, whatever stands at its ends. -/
theorem Sentence.isChain {tokens : List Value} (h : Sentence tokens) {before after : Value}
    (hbefore : before.endsOperand = false) (hafter : after.startsOperand = false) :
    (before :: tokens ++ [after]).IsChain Adjoins := by
  induction h generalizing before after with
  | @operand value hvalue =>
    have hstart : Adjoins before value := by rw [Adjoins, hvalue.startsOperand, hbefore]; rfl
    have hend : Adjoins value after := by rw [Adjoins, hvalue.endsOperand, hafter]; rfl
    exact .cons_cons hstart (.cons_cons hend (.singleton after))
  | @group tokens _ ih =>
    have hstart : Adjoins before (.operator .leftParen) := by rw [Adjoins, hbefore]; rfl
    have hend : Adjoins (.operator .rightParen) after := by rw [Adjoins, hafter]; rfl
    exact (isChain_group_iff [before]).mpr
      ⟨.cons_cons hstart (.singleton _), ih rfl rfl, .cons_cons hend (.singleton after)⟩
  | @application left right op _ hop _ ihl ihr =>
    -- the operator ends the chain of the left part and starts that of the right one
    rw [List.cons_append, List.append_assoc, List.cons_append, ← List.cons_append,
      List.isChain_split]
    exact ⟨ihl hbefore (startsOperand_of_isParen_eq_false hop),
      ihr (endsOperand_of_isParen_eq_false hop) hafter⟩

/-- An operand or a group completes tokens that await one. -/
theorem AwaitsOperand.append {tokens operand : List Value} (h : AwaitsOperand tokens)
    (hoperand : Sentence operand) : Sentence (tokens ++ operand) := by
  rcases h with rfl | ⟨before, op, hbefore, hop, rfl⟩
  · exact hoperand
  · rw [List.append_assoc, List.singleton_append]
    exact .application hbefore hop hoperand

/-- What is in front of a group and what is inside it are of known kind if all tokens are. -/
theorem known_of_group {tokens inner : List Value}
    (h : ∀ token ∈ tokens ++ parenthesized inner, token.kind ≠ .unknown) :
    (∀ token ∈ tokens, token.kind ≠ .unknown) ∧ ∀ token ∈ inner, token.kind ≠ .unknown := by
  obtain ⟨htokens, hgroup⟩ := List.forall_mem_append.mp h
  exact ⟨htokens, fun token hmem => hgroup token (by simp [parenthesized, hmem])⟩

/-- Nested tokens that take turns, up to the token behind them, are a sentence or await an operand.
The token behind them tells which. -/
theorem Balanced.sentence_or_awaitsOperand {tokens : List Value} (h : Balanced tokens)
    (hknown : ∀ token ∈ tokens, token.kind ≠ .unknown) {next : Value}
    (hchain : (Value.operator .leftParen :: tokens ++ [next]).IsChain Adjoins) :
    (next.startsOperand = false → Sentence tokens) ∧
    (next.startsOperand = true → AwaitsOperand tokens) := by
  -- each case looks at the token that has come last; what is in front of it is told by the
  -- induction hypothesis with that token as the next one
  induction h generalizing next with
  | nothing =>
    have hnext : next.startsOperand = true := hchain.rel
    exact ⟨fun hnext' => absurd (hnext'.symm.trans hnext) Bool.false_ne_true, fun _ => Or.inl rfl⟩
  | @single tokens value _ hvalue ih =>
    obtain ⟨hbefore, hvalueKnown⟩ := List.forall_mem_append.mp hknown
    rw [List.cons_append, List.append_assoc, List.singleton_append, ← List.cons_append,
      List.isChain_split] at hchain
    obtain ⟨hchain, hnext⟩ := hchain
    have hnext : next.startsOperand = !value.endsOperand := hnext.rel
    obtain ⟨hsentence, hawaits⟩ := ih hbefore hchain
    rcases Value.isOperand_or_operator hvalue (hvalueKnown value (List.mem_singleton_self value))
      with hoperand | ⟨op, rfl, hop⟩
    · -- an operand comes where one is due, and completes a sentence
      rw [hoperand.endsOperand] at hnext
      exact ⟨fun _ => (hawaits hoperand.startsOperand).append (.operand hoperand),
        fun hnext' => absurd (hnext.symm.trans hnext') Bool.false_ne_true⟩
    · -- an operator comes behind a sentence, and an operand is due behind it
      have hleft := hsentence (startsOperand_of_isParen_eq_false hop)
      rw [endsOperand_of_isParen_eq_false hop] at hnext
      exact ⟨fun hnext' => absurd (hnext'.symm.trans hnext) Bool.false_ne_true,
        fun _ => Or.inr ⟨tokens, op, hleft, hop, rfl⟩⟩
  | @group tokens inner _ _ ih ihInner =>
    obtain ⟨hbefore, hinner⟩ := known_of_group hknown
    obtain ⟨hchain, hinnerChain, hnext⟩ :=
      (isChain_group_iff (.operator .leftParen :: tokens)).mp hchain
    have hnext : next.startsOperand = false := hnext.rel
    -- a group comes where an operand is due, and what is inside it ends in front of a `)`
    have hsentence := (ihInner hinner hinnerChain).1 rfl
    exact ⟨fun _ => ((ih hbefore hchain).2 rfl).append (.group hsentence),
      fun hnext' => absurd (hnext.symm.trans hnext') Bool.false_ne_true⟩

/-- **Sentences are known by their neighbours.** -/
theorem sentence_iff_alternates {tokens : List Value} (h : Lexed tokens) :
    Sentence tokens ↔ Alternates tokens := by
  refine ⟨fun hsentence => hsentence.isChain rfl rfl, fun halternates => ?_⟩
  exact (h.balanced.sentence_or_awaitsOperand h.known halternates).1 rfl

/-! ### Translation -/

namespace Translates

theorem mono {layer layer' : Nat} {tokens values : List Value} (hlayer : layer ≤ layer')
    (h : Translates layer' tokens values) : Translates layer tokens values := by
  induction hlayer with
  | refl => exact h
  | step _ ih => exact ih h.tighter

/-- What can stand behind operands and groups can stand behind any phrase, since these are what it
ends in. -/
theorem exists_append {layer : Nat} {tokens values more : List Value}
    (h : Translates layer tokens values)
    (hmore : ∀ {tokens values}, Translates 6 tokens values →
      ∃ values', Translates 6 (tokens ++ more) values') :
    ∃ values', Translates layer (tokens ++ more) values' := by
  induction h with
  | nothing => exact hmore .nothing
  | operand htokens hvalue => exact hmore (htokens.operand hvalue)
  | group htokens hinner hne => exact hmore (htokens.group hinner hne)
  | tighter _ ih =>
    obtain ⟨values', hvalues⟩ := ih
    exact ⟨values', hvalues.tighter⟩
  | application hleft hop hlayer _ _ ihr =>
    -- what comes behind goes to the right part, which ends in operands and groups as well
    obtain ⟨values', hvalues⟩ := ihr
    rw [List.append_assoc, List.cons_append]
    exact ⟨_, .application hleft hop hlayer hvalues⟩

/-- An operator can stand behind any phrase. It takes what is in front of it up to the operators
that bind less tightly, and nothing as its right part. -/
theorem exists_append_operator {layer : Nat} {tokens values : List Value} {op : Operator}
    (h : Translates layer tokens values) (hop : op.isParen = false)
    (hlayer : layer ≤ op.precedence) :
    ∃ values', Translates layer (tokens ++ [.operator op]) values' := by
  have hprec := op.precedence_le
  -- an operator of this very layer takes the whole phrase as its left part
  have hsame : ∀ {layer tokens values}, Translates layer tokens values → op.precedence = layer →
      ∃ values', Translates layer (tokens ++ [.operator op]) values' := by
    intro layer tokens values h heq
    exact ⟨_, .application h hop heq (nothing.mono (by omega))⟩
  induction h with
  | nothing => omega
  | operand _ _ => omega
  | group _ _ _ => omega
  | tighter htokens ih =>
    rcases Nat.lt_or_eq_of_le hlayer with hlt | heq
    · obtain ⟨values', hvalues⟩ := ih hlt
      exact ⟨values', hvalues.tighter⟩
    · exact hsame htokens.tighter heq.symm
  | application hleft hop' hlayer' hright _ ih =>
    rcases Nat.lt_or_eq_of_le hlayer with hlt | heq
    · obtain ⟨values', hvalues⟩ := ih hlt
      rw [List.append_assoc, List.cons_append]
      exact ⟨_, .application hleft hop' hlayer' hvalues⟩
    · exact hsame (.application hleft hop' hlayer' hright) heq.symm

/-- Nothing is in a translation that is not among the tokens. -/
theorem subset {layer : Nat} {tokens values : List Value} (h : Translates layer tokens values) :
    values ⊆ tokens := by
  induction h with
  | nothing => exact List.Subset.refl _
  | operand _ _ ih =>
    exact List.append_subset.mpr
      ⟨List.Subset.trans ih (List.subset_append_left _ _), List.subset_append_right _ _⟩
  | group _ _ _ ih ihInner =>
    refine List.append_subset.mpr
      ⟨List.Subset.trans ih (List.subset_append_left _ _), fun value hvalue => ?_⟩
    simp [parenthesized, ihInner hvalue]
  | tighter _ ih => exact ih
  | application _ _ _ _ ihl ihr =>
    intro value hvalue
    simp only [List.mem_append, List.mem_singleton] at hvalue
    rw [List.mem_append, List.mem_cons]
    rcases hvalue with (hleft | hright) | hop
    · exact Or.inl (ihl hleft)
    · exact Or.inr (Or.inr (ihr hright))
    · exact Or.inr (Or.inl hop)

end Translates

/-- Nested tokens have a translation, in whatever order they stand, unless there is a `()` among
them. -/
theorem Balanced.exists_translates {tokens : List Value} (h : Balanced tokens)
    (hknown : ∀ token ∈ tokens, token.kind ≠ .unknown)
    (hempty : ¬ parenthesized [] <:+: tokens) : ∃ values, Translates 1 tokens values := by
  induction h with
  | nothing => exact ⟨[], Translates.nothing.mono (by omega)⟩
  | @single tokens value _ hvalue ih =>
    obtain ⟨hbefore, hvalueKnown⟩ := List.forall_mem_append.mp hknown
    obtain ⟨values, hvalues⟩ :=
      ih hbefore fun h => hempty (h.trans (List.prefix_append _ _).isInfix)
    rcases Value.isOperand_or_operator hvalue (hvalueKnown value (List.mem_singleton_self value))
      with hoperand | ⟨op, rfl, hop⟩
    · exact hvalues.exists_append fun htokens => ⟨_, htokens.operand hoperand⟩
    · exact hvalues.exists_append_operator hop (Operator.precedence_pos hop)
  | @group tokens inner _ _ ih ihInner =>
    obtain ⟨hbefore, hinner⟩ := known_of_group hknown
    -- neither is the group empty, nor is there an empty one inside it
    have hnested : ¬ parenthesized [] <:+: parenthesized inner :=
      fun h => hempty (h.trans (List.suffix_append _ _).isInfix)
    have hne : inner ≠ [] := by
      rintro rfl
      exact hnested List.infix_rfl
    obtain ⟨values, hvalues⟩ :=
      ih hbefore fun h => hempty (h.trans (List.prefix_append _ _).isInfix)
    obtain ⟨values', hvalues'⟩ := ihInner hinner fun h =>
      hnested (h.trans ⟨[.operator .leftParen], [.operator .rightParen], rfl⟩)
    exact hvalues.exists_append fun htokens => ⟨_, htokens.group hvalues' hne⟩

/-- **On the tokens of an expression the reordering is the translation.** -/
theorem Lexed.postfixOrder_eq_ok_iff {tokens values : List Value} (h : Lexed tokens) :
    postfixOrder tokens = .ok values ↔ Translates 1 tokens values := by
  refine ⟨fun hok => ?_, postfixOrder_of_translates⟩
  rcases postfixOrder_of_lexed h with ⟨-, herror⟩ | ⟨hempty, -⟩
  · rw [herror] at hok
    cases hok
  · -- there is some translation, and the reordering computes it, so it is the one asked for
    obtain ⟨values', hvalues⟩ := h.balanced.exists_translates h.known hempty
    rw [postfixOrder_of_translates hvalues] at hok
    cases hok
    exact hvalues

/-! ### Acceptance -/

/-- **What is accepted:** the tokens whose translation is the postfix order of a tree. -/
theorem Lexed.parse_eq_ok_iff {tokens : List Value} {expr : Expr} (h : Lexed tokens) :
    (parse tokens).outcome = .ok expr ↔ expr.WellFormed ∧ Translates 1 tokens expr.toPostfix := by
  rw [outcome_parse, bind_eq_ok_iff]
  constructor
  · rintro ⟨values, hvalues, hexpr⟩
    obtain ⟨hwell, rfl⟩ := Expr.ofPostfix_eq_ok_iff.mp hexpr
    exact ⟨hwell, h.postfixOrder_eq_ok_iff.mp hvalues⟩
  · rintro ⟨hwell, htranslates⟩
    rw [← bind_eq_ok_iff, ← outcome_parse]
    exact parse_of_translates hwell htranslates

/-- The leaves and operators of a tree are tokens of the expression. -/
theorem Lexed.toPostfix_subset {tokens : List Value} {expr : Expr} (h : Lexed tokens)
    (hparse : (parse tokens).outcome = .ok expr) : expr.toPostfix ⊆ tokens :=
  (h.parse_eq_ok_iff.mp hparse).2.subset

/-- What is not accepted is malformed. -/
theorem Lexed.kind_of_parse_eq_error {tokens : List Value} {e : Error} (h : Lexed tokens)
    (herror : (parse tokens).outcome = .error e) : e.kind = .malformedExpression := by
  rw [outcome_parse, bind_eq_error_iff] at herror
  rcases herror with hpostfix | ⟨values, -, hexpr⟩
  · -- the reordering rejects `()` alone, and everything else is left to the building of the tree
    rcases postfixOrder_of_lexed h with ⟨-, hempty⟩ | ⟨-, values, hvalues⟩
    · rw [hempty] at hpostfix
      cases hpostfix
      rfl
    · rw [hvalues] at hpostfix
      cases hpostfix
  · exact Expr.kind_of_ofPostfix_eq_error hexpr

/-- **The parser accepts sentences alone, and rejects all else as malformed, exactly where no tokens
are out of place** with a count that comes out. What it rejects is malformed in any case. -/
theorem parse_accepts_sentences_iff {expression : String} {tokens : List Value}
    (h : (tokenize expression).outcome = .ok tokens) :
    (((∀ expr, (parse tokens).outcome = .ok expr → Sentence tokens) ∧
        (¬ Sentence tokens →
          ∃ e, (parse tokens).outcome = .error e ∧ e.kind = .malformedExpression)) ↔
      ¬ Misplaced tokens) ∧
    ∀ e, (parse tokens).outcome = .error e → e.kind = .malformedExpression := by
  have hlexed := lexed_of_tokenize h
  have hmalformed := fun e => hlexed.kind_of_parse_eq_error (e := e)
  refine ⟨⟨fun ⟨haccepted, _⟩ ⟨halternates, expr, hexpr⟩ => ?_, fun hplaced => ?_⟩, hmalformed⟩
  · -- misplaced tokens are accepted, and they are no sentence
    rw [← sentence_iff_alternates hlexed] at halternates
    exact halternates (haccepted expr (hlexed.parse_eq_ok_iff.mpr hexpr))
  · -- accepted tokens have the translation of a tree, so only by taking turns are they in place
    have haccepted : ∀ expr, (parse tokens).outcome = .ok expr → Sentence tokens := by
      intro expr hexpr
      rw [sentence_iff_alternates hlexed]
      by_contra halternates
      exact hplaced ⟨halternates, expr, hlexed.parse_eq_ok_iff.mp hexpr⟩
    refine ⟨haccepted, fun hsentence => ?_⟩
    obtain ⟨e, he⟩ := exists_error_iff.mpr fun expr hexpr => hsentence (haccepted expr hexpr)
    exact ⟨e, he, hmalformed e he⟩

/-- In `1*(2+3)` all tokens take turns, so it is accepted as a sentence or not at all. -/
theorem parse_accepts_sentences_product_of_sum :
    ∃ tokens, (tokenize "1*(2+3)").outcome = .ok tokens ∧ Alternates tokens ∧
      (∀ expr, (parse tokens).outcome = .ok expr → Sentence tokens) ∧
      ∀ e, (parse tokens).outcome = .error e → e.kind = .malformedExpression := by
  have htokens : (tokenize "1*(2+3)").outcome = .ok [.number ⟨1, 0, by decide⟩,
      .operator .multiply, .operator .leftParen, .number ⟨2, 0, by decide⟩, .operator .add,
      .number ⟨3, 0, by decide⟩, .operator .rightParen] := by
    decide +kernel
  obtain ⟨hiff, hmalformed⟩ := parse_accepts_sentences_iff htokens
  refine ⟨_, htokens, by decide, ?_, hmalformed⟩
  exact (hiff.mpr fun hmisplaced => hmisplaced.1 (by decide)).1

/-- In `1 2 +` the operator stands behind its operands. No sentence reads so, yet it is accepted. -/
theorem parse_accepts_operator_behind_operands :
    ∃ tokens expr, (tokenize "1 2 +").outcome = .ok tokens ∧
      (parse tokens).outcome = .ok expr ∧ expr.text = "(1 + 2)" ∧ ¬ Sentence tokens := by
  have htokens : (tokenize "1 2 +").outcome = .ok [.number ⟨1, 0, by decide⟩,
      .number ⟨2, 0, by decide⟩, .operator .add] := by
    decide +kernel
  refine ⟨_, _, htokens, rfl, by decide +kernel, fun hsentence => ?_⟩
  have halternates := (sentence_iff_alternates (lexed_of_tokenize htokens)).mp hsentence
  revert halternates
  decide

end RuleLang
