import RuleLang.Proofs.Outcome

/-!
# Reading pieces as tokens

How the texts of lexemes become tokens, apart from where they stand. A piece becomes the token that
it is a literal of, with a minus sign split off in front of it, or only that sign or nothing if it
is no literal (`readPiece?`). What is carried from piece to piece is the last token (`readPieces?`),
and all that it is asked is whether a sign may follow it (`readPieces?_congr`). So the pieces of two
texts in a row are read one after the other, the second ones after the last token of the first
(`readPieces?_append`).

Parentheses are counted along with it, and a lexeme that is discarded is noted (`tokensFrom_cons`).
Where there are no tokens the kind of error follows from the texts too (`readTokens`,
`mapError_kind_tokensFrom`); only messages have offsets in them. An expression that is not blank has
the tokens that its pieces are read as, if these match in their parentheses, and it has none
otherwise (`tokenize_eq_ok_iff`).
-/

namespace RuleLang

/-- The tokens of a piece that comes after the token `previous`. A numeral out of range has none. -/
def readPiece? (previous : Option Value) (piece : List Char) : Option (List Value) :=
  let (sign, literal) := splitSign previous piece
  let token := Value.classify (String.ofList literal)
  if token.kind = .unknown then
    if (Numeral.read? literal).isSome then none else some sign
  else some (sign ++ [token])

/-- What is noted about a lexeme that comes after the token `previous`: a warning if it is
discarded, and else nothing. -/
def warningsAbout (previous : Option Value) (lexeme : Lexeme) : List Record :=
  let token := Value.classify (String.ofList (splitSign previous lexeme.text).2)
  if token.kind = .unknown then [.discarded token.text lexeme.offset] else []

/-- The tokens of pieces that come after the token `previous`. -/
def readPieces? (previous : Option Value) : List (List Char) → Option (List Value)
  | [] => some []
  | piece :: pieces => do
    let tokens ← readPiece? previous piece
    let more ← readPieces? (tokens.getLast?.or previous) pieces
    return tokens ++ more

variable {previous previous' : Option Value} {depth : Nat} {tokens : List Value}

/-! ### What is carried along -/

/-- A piece in front of others is read first, and they are read after its last token. -/
theorem readPieces?_cons {piece : List Char} {pieces : List (List Char)} :
    readPieces? previous (piece :: pieces) = some tokens ↔
      ∃ first more, readPiece? previous piece = some first ∧
        readPieces? (first.getLast?.or previous) pieces = some more ∧ tokens = first ++ more := by
  rw [readPieces?]
  simp only [bind, Option.bind_eq_some_iff, pure, Option.some.injEq]
  constructor
  · rintro ⟨first, hfirst, more, hmore, rfl⟩
    exact ⟨first, more, hfirst, hmore, rfl⟩
  · rintro ⟨first, more, hfirst, hmore, rfl⟩
    exact ⟨first, hfirst, more, hmore, rfl⟩

/-- **Pieces in a row** are read one after the other. -/
theorem readPieces?_append {pieces pieces' : List (List Char)} {more : List Value}
    (h : readPieces? previous pieces = some tokens)
    (hmore : readPieces? (tokens.getLast?.or previous) pieces' = some more) :
    readPieces? previous (pieces ++ pieces') = some (tokens ++ more) := by
  induction pieces generalizing previous tokens with
  | nil =>
    cases h
    exact hmore
  | cons piece pieces ih =>
    obtain ⟨first, rest, hfirst, hrest, rfl⟩ := readPieces?_cons.mp h
    -- the last token is one of `rest`, or else that of `first`, or else the one before both
    rw [List.getLast?_append, Option.or_assoc] at hmore
    exact readPieces?_cons.mpr
      ⟨first, rest ++ more, hfirst, ih hrest hmore, List.append_assoc first rest more⟩

theorem readPiece?_congr (h : acceptsSign previous = acceptsSign previous') (piece : List Char) :
    readPiece? previous piece = readPiece? previous' piece := by
  have hsplit : splitSign previous piece = splitSign previous' piece := by
    unfold splitSign
    rw [h]
  unfold readPiece?
  rw [hsplit]

/-- **The token before matters only** in whether a sign may follow it. -/
theorem readPieces?_congr (h : acceptsSign previous = acceptsSign previous')
    (pieces : List (List Char)) : readPieces? previous pieces = readPieces? previous' pieces := by
  induction pieces generalizing previous previous' with
  | nil => rfl
  | cons piece pieces ih =>
    -- once there is a token, the one before does not matter any more
    have hlast (first : List Value) :
        acceptsSign (first.getLast?.or previous) = acceptsSign (first.getLast?.or previous') := by
      cases first.getLast? with
      | none => exact h
      | some token => rfl
    rw [readPieces?, readPieces?, readPiece?_congr h]
    exact congrArg _ (funext fun first => by rw [ih (hlast first)])

/-! ### The tokens of an expression -/

/-- A minus sign that is split off is a token that opens and closes nothing. -/
theorem splitSign_fst (previous : Option Value) (text : List Char) :
    (splitSign previous text).1 = [] ∨ (splitSign previous text).1 = [.operator .subtract] := by
  unfold splitSign
  split
  · split
    · exact Or.inr rfl
    · exact Or.inl rfl
  · exact Or.inl rfl

/-- A minus sign in front of tokens leaves the count of parentheses as it is. -/
theorem foldlM_depthAfter?_sign {sign : List Value}
    (h : sign = [] ∨ sign = [.operator .subtract]) (depth : Nat) (tokens : List Value) :
    (sign ++ tokens).foldlM depthAfter? depth = tokens.foldlM depthAfter? depth := by
  rcases h with rfl | rfl <;> rfl

/-- The tokens of pieces that come after the token `previous`, with `depth` parentheses open, or the
kind of error that there is instead. -/
def readTokens (previous : Option Value) (depth : Nat) :
    List (List Char) → Except ErrorKind (List Value)
  | [] => if depth = 0 then .ok [] else .error .mismatchedParentheses
  | piece :: pieces =>
    match readPiece? previous piece with
    | none => .error .malformedExpression
    | some tokens =>
      match tokens.foldlM depthAfter? depth with
      | none => .error .mismatchedParentheses
      | some depth => (tokens ++ ·) <$> readTokens (tokens.getLast?.or previous) depth pieces

/-- **One lexeme** in front of others: it is out of range, or it closes a parenthesis that is not
open, or the others are read after its tokens. -/
theorem tokensFrom_cons (previous : Option Value) (depth : Nat) (lexeme : Lexeme)
    (lexemes : List Lexeme) :
    tokensFrom previous depth (lexeme :: lexemes) =
      match readPiece? previous lexeme.text with
      | none => .fail (.malformed (.numberOutOfRange
          (Value.classify (String.ofList (splitSign previous lexeme.text).2)).text lexeme.offset))
      | some tokens =>
        match tokens.foldlM depthAfter? depth with
        | none => .fail (.mismatched (.unopenedAt lexeme.offset))
        | some depth' =>
          let rest := tokensFrom (tokens.getLast?.or previous) depth' lexemes
          ⟨warningsAbout previous lexeme ++ rest.records, (tokens ++ ·) <$> rest.outcome⟩ := by
  rw [tokensFrom, readPiece?, warningsAbout]
  have hsign := splitSign_fst previous lexeme.text
  generalize splitSign previous lexeme.text = parts at hsign ⊢
  obtain ⟨sign, literal⟩ := parts
  -- the sign leaves the depth alone, so it is that of the token behind it that counts
  have hdepth (more : List Value) := foldlM_depthAfter?_sign hsign depth more
  dsimp only at hdepth ⊢
  generalize Value.classify (String.ofList literal) = token
  have hrest {x : Logged Error (List Value)} (f : List Value → List Value) :
      (x >>= fun tokens => pure (f tokens)) = ⟨x.records, f <$> x.outcome⟩ := by
    obtain ⟨records, _ | tokens⟩ := x
    · rfl
    · rw [Logged.bind_of_ok, Logged.pure_eq, List.append_nil]
      rfl
  by_cases hunknown : token.kind = .unknown
  · rw [if_pos hunknown, if_pos hunknown, if_pos hunknown]
    by_cases hnumeral : (Numeral.read? literal).isSome
    · rw [if_pos hnumeral, if_pos hnumeral]
    · -- the lexeme is discarded, and of it only the sign is left
      have hsame : sign.foldlM depthAfter? depth = some depth := by simpa using hdepth []
      rw [if_neg hnumeral, if_neg hnumeral]
      dsimp only
      rw [hsame, hrest]
      rfl
  · rw [if_neg hunknown, if_neg hunknown, if_neg hunknown]
    have hsame := hdepth [token]
    simp only [List.foldlM_cons, List.foldlM_nil, bind_pure] at hsame
    dsimp only
    rw [hsame]
    cases depthAfter? depth token with
    | none => rfl
    | some depth' =>
      have hlast : (sign ++ [token]).getLast?.or previous = some token := by
        rw [List.getLast?_concat, Option.some_or]
      dsimp only
      rw [hlast, hrest]
      simp only [List.append_assoc, List.singleton_append, List.nil_append]

/-- **The outcome of lexemes**, up to the kind of error, depends on their texts alone. -/
theorem mapError_kind_tokensFrom (lexemes : List Lexeme) :
    (tokensFrom previous depth lexemes).outcome.mapError Error.kind
      = readTokens previous depth (lexemes.map (·.text)) := by
  induction lexemes generalizing previous depth with
  | nil =>
    rw [tokensFrom, List.map_nil, readTokens]
    split <;> rfl
  | cons lexeme lexemes ih =>
    rw [tokensFrom_cons, List.map_cons, readTokens]
    cases readPiece? previous lexeme.text with
    | none => rfl
    | some tokens =>
      dsimp only
      cases tokens.foldlM depthAfter? depth with
      | none => rfl
      | some depth' =>
        dsimp only
        -- an error of the rest is the error of all, and its kind is the same in front
        rw [← ih]
        cases (tokensFrom (tokens.getLast?.or previous) depth' lexemes).outcome <;> rfl

/-- Behind a piece the others are read after the tokens of that piece. -/
theorem readTokens_cons_congr {piece : List Char} {pieces pieces' : List (List Char)}
    (h : ∀ tokens depth, readPiece? previous piece = some tokens →
      readTokens (tokens.getLast?.or previous) depth pieces
        = readTokens (tokens.getLast?.or previous) depth pieces') :
    readTokens previous depth (piece :: pieces) = readTokens previous depth (piece :: pieces') := by
  rw [readTokens, readTokens]
  cases hpiece : readPiece? previous piece with
  | none => rfl
  | some tokens =>
    dsimp only
    cases tokens.foldlM depthAfter? depth with
    | none => rfl
    | some depth' =>
      dsimp only
      rw [h tokens depth' hpiece]

/-- Pieces are read as tokens if each of them is, and the tokens match in their parentheses from the
given depth on. -/
theorem readTokens_eq_ok_iff {pieces : List (List Char)} :
    readTokens previous depth pieces = .ok tokens ↔
      readPieces? previous pieces = some tokens ∧ tokens.foldlM depthAfter? depth = some 0 := by
  induction pieces generalizing previous depth tokens with
  | nil =>
    by_cases hdepth : depth = 0
    · rw [readTokens, if_pos hdepth]
      constructor
      · intro h
        cases h
        exact ⟨rfl, congrArg some hdepth⟩
      · rintro ⟨hread, -⟩
        cases hread
        rfl
    · rw [readTokens, if_neg hdepth]
      refine iff_of_false (fun h => ?_) ?_
      · cases h
      · rintro ⟨hread, hmatched⟩
        cases hread
        exact hdepth (Option.some.inj hmatched)
  | cons piece pieces ih =>
    rw [readTokens, readPieces?_cons]
    cases hfirst : readPiece? previous piece with
    | none => simp
    | some first =>
      dsimp only
      cases hdepth : first.foldlM depthAfter? depth with
      | none =>
        refine iff_of_false (fun h => ?_) ?_
        · cases h
        · rintro ⟨⟨first', more, hfirst', -, rfl⟩, hmatched⟩
          cases hfirst'
          -- the count fails on the first piece already
          rw [List.foldlM_append, hdepth] at hmatched
          cases hmatched
      | some depth' =>
        -- behind the first piece the count goes on from where it has got to
        have hmatched (more : List Value) : (first ++ more).foldlM depthAfter? depth
            = more.foldlM depthAfter? depth' := by
          rw [List.foldlM_append, hdepth]
          rfl
        dsimp only
        constructor
        · intro h
          obtain ⟨more, hmore, rfl⟩ := exists_of_map_eq_ok h
          obtain ⟨hread, hzero⟩ := ih.mp hmore
          exact ⟨⟨first, more, rfl, hread, rfl⟩, (hmatched more).trans hzero⟩
        · rintro ⟨⟨first', more, hfirst', hread, rfl⟩, hzero⟩
          cases hfirst'
          rw [ih.mpr ⟨hread, (hmatched more).symm.trans hzero⟩]
          rfl

/-- The tokens of lexemes are what their texts are read as, and match in their parentheses from the
given depth on. -/
theorem tokensFrom_eq_ok_iff {lexemes : List Lexeme} :
    (tokensFrom previous depth lexemes).outcome = .ok tokens ↔
      readPieces? previous (lexemes.map (·.text)) = some tokens ∧
        tokens.foldlM depthAfter? depth = some 0 := by
  rw [← readTokens_eq_ok_iff, ← mapError_kind_tokensFrom, mapError_eq_ok_iff]

/-- What holds of the tokens of each piece holds of all tokens. -/
theorem forall_mem_of_readPieces? {motive : Value → Prop} {pieces : List (List Char)}
    (hpiece : ∀ piece ∈ pieces, ∀ previous first, readPiece? previous piece = some first →
      ∀ token ∈ first, motive token)
    (h : readPieces? previous pieces = some tokens) : ∀ token ∈ tokens, motive token := by
  induction pieces generalizing previous tokens with
  | nil =>
    cases h
    exact fun _ hmem => absurd hmem List.not_mem_nil
  | cons piece pieces ih =>
    obtain ⟨first, more, hfirst, hmore, rfl⟩ := readPieces?_cons.mp h
    obtain ⟨hhead, htail⟩ := List.forall_mem_cons.mp hpiece
    exact List.forall_mem_append.mpr ⟨hhead previous first hfirst, ih htail hmore⟩

theorem classify_symbol (op : Operator) : Value.classify op.symbol = .operator op := by
  rw [Value.classify, Operator.ofSymbol?_symbol]

/-- The symbol of an operator is read as the operator, whatever comes before. -/
theorem readPiece?_symbol (previous : Option Value) (op : Operator) :
    readPiece? previous op.symbol.toList = some [.operator op] := by
  have hsplit : splitSign previous op.symbol.toList = ([], op.symbol.toList) := by
    cases op <;> rfl
  rw [readPiece?, hsplit]
  dsimp only
  rw [String.ofList_toList, classify_symbol]
  rfl

/-- A piece gives its sign and the token that the rest is a literal of, or one of the two, or
nothing. -/
theorem eq_or_eq_of_readPiece? {piece : List Char} (h : readPiece? previous piece = some tokens) :
    tokens = (splitSign previous piece).1 ∨
      ∃ token, Value.classify (String.ofList (splitSign previous piece).2) = token ∧
        token.kind ≠ .unknown ∧ tokens = (splitSign previous piece).1 ++ [token] := by
  unfold readPiece? at h
  dsimp only at h
  generalize Value.classify (String.ofList (splitSign previous piece).2) = token at h ⊢
  by_cases hunknown : token.kind = .unknown
  · rw [if_pos hunknown] at h
    split at h
    · cases h
    · exact Or.inl (Option.some.inj h).symm
  · rw [if_neg hunknown] at h
    exact Or.inr ⟨token, rfl, hunknown, (Option.some.inj h).symm⟩

/-- What holds of a minus sign, and of the token that the rest is a literal of, holds of all tokens
of a piece. -/
theorem forall_mem_of_readPiece? {motive : Value → Prop} {piece : List Char}
    (hminus : motive (.operator .subtract))
    (hrest : ∀ token, Value.classify (String.ofList (splitSign previous piece).2) = token →
      token.kind ≠ .unknown → motive token)
    (h : readPiece? previous piece = some tokens) : ∀ token ∈ tokens, motive token := by
  have hsign : ∀ token ∈ (splitSign previous piece).1, motive token := by
    rcases splitSign_fst previous piece with hnone | hone
    · rw [hnone]
      exact fun _ hmem => absurd hmem List.not_mem_nil
    · rw [hone]
      exact List.forall_mem_singleton.mpr hminus
  rcases eq_or_eq_of_readPiece? h with rfl | ⟨token, htoken, hknown, rfl⟩
  · exact hsign
  · exact List.forall_mem_append.mpr
      ⟨hsign, List.forall_mem_singleton.mpr (hrest token htoken hknown)⟩

/-- No token of a piece is of unknown kind. -/
theorem kind_ne_unknown_of_readPiece? {piece : List Char}
    (h : readPiece? previous piece = some tokens) : ∀ token ∈ tokens, token.kind ≠ .unknown :=
  forall_mem_of_readPiece? (by simp [Value.kind]) (fun _ _ hknown => hknown) h

/-- **The tokens of an expression.** -/
theorem tokenize_eq_ok_iff {expression : String} :
    (tokenize expression).outcome = .ok tokens ↔
      allBlank expression.toList = false ∧
        readPieces? none ((lexemes expression).map (·.text)) = some tokens ∧
          tokens.foldlM depthAfter? 0 = some 0 := by
  rw [← tokensFrom_eq_ok_iff, tokenize]
  by_cases hblank : allBlank expression.toList
  · rw [if_pos hblank]
    refine iff_of_false (fun h => ?_) ?_
    · cases h
    · rintro ⟨hnot, -⟩
      rw [hblank] at hnot
      cases hnot
  · rw [if_neg hblank]
    -- the tokens are noted once they are there, which changes nothing in them
    simp only [Logged.outcome_bind, Logged.outcome_note, bind_eq_ok_iff]
    constructor
    · rintro ⟨tokens', htokens', -, -, hsame⟩
      cases hsame
      exact ⟨by simpa using hblank, htokens'⟩
    · rintro ⟨-, htokens⟩
      exact ⟨tokens, htokens, (), trivial, rfl⟩

end RuleLang
