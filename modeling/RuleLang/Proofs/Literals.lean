import RuleLang.Proofs.Classification
import RuleLang.Proofs.Parentheses
import RuleLang.Proofs.Seams

/-!
# Tokens and their literals

Which lists of tokens expressions have (`Writable`), said of the tokens alone: which values a token
can be, where a number with a minus sign may stand, and that parentheses match. The literals of such
tokens, with spaces between them, are an expression that has them (`tokenize_image`). So the lists
are just the ones that expressions have, apart from the empty list, whose text would be empty.

From an expression to its tokens each condition is found where it comes from. What a token can be
follows from the form of its piece (`isLexical_classify`): a quoted text ends at the first quote, a
group at the first bracket. A minus sign stays with its number only where it is a sign
(`acceptsSign_of_isNegative`). The counts of parentheses are those of the counter.

Back from the tokens, the literals are the pieces of their text (`pieces_literals`), and each is
read as its token (`readPiece?_literal`). The one thing that depends on other tokens is the sign,
and the condition on it says what is needed (`SignsFit`, for the tokens after a given one).
-/

namespace RuleLang

open Lexeme (HasForm first)

namespace Value

/-- **The values that tokens can be.** -/
def IsLexical : Value → Prop
  | unknown _ => False
  | number _ | boolean _ | operator _ => True
  | string text => '"' ∉ text.toList ∧ (classify (quoted text)).kind ≠ .datetime
  | datetime text moment => moment.WrittenAs text.toList
  | stringArray text =>
    StringArray.IsWritten text.toList ∧
      ∃ inner, text.toList = '[' :: inner ++ [']'] ∧ '[' ∉ inner ∧ ']' ∉ inner

/-- A number with a minus sign. -/
def IsNegative : Value → Prop
  | number value => '-' ∈ value.text.toList
  | _ => False

end Value

/-- **The tokens that expressions can be read as.** -/
structure Writable (tokens : List Value) : Prop where
  lexical : ∀ token ∈ tokens, token.IsLexical
  /-- A number with a minus sign comes first, or next to an operator in front of it. -/
  signed : ∀ before token after, tokens = before ++ token :: after → token.IsNegative →
    before = [] ∨ ∃ op, before.getLast? = some (.operator op) ∧ op ≠ .rightParen
  /-- Nowhere have more parentheses been closed than opened. -/
  nested : ∀ before, before <+: tokens →
    before.count (.operator .rightParen) ≤ before.count (.operator .leftParen)
  /-- At the end as many have been closed as opened. -/
  balanced : tokens.count (.operator .rightParen) = tokens.count (.operator .leftParen)

/-! ### Signs -/

/-- Tokens whose minus signs may stand where they do, after the token `previous`. -/
def SignsFit (previous : Option Value) : List Value → Prop
  | [] => True
  | token :: tokens =>
    (token.IsNegative → acceptsSign previous = true) ∧ SignsFit (some token) tokens

variable {previous : Option Value} {tokens : List Value}

/-- The token in front of what comes next is the last one read, or the one before if there
is none. -/
theorem getLast?_cons_or (token : Value) (tokens : List Value) (previous : Option Value) :
    (token :: tokens).getLast?.or previous = tokens.getLast?.or (some token) := by
  rw [List.getLast?_cons]
  cases tokens.getLast? <;> rfl

/-- Signs fit in a row of tokens just where they fit in each part, the second read behind
the first. -/
theorem signsFit_append {more : List Value} :
    SignsFit previous (tokens ++ more) ↔
      SignsFit previous tokens ∧ SignsFit (tokens.getLast?.or previous) more := by
  induction tokens generalizing previous with
  | nil => exact (iff_of_eq (true_and _)).symm
  | cons token tokens ih =>
    rw [List.cons_append, SignsFit, SignsFit, ih, getLast?_cons_or, and_assoc]

/-- Signs fit just where each number with one may stand behind the token in front of it. -/
theorem signsFit_iff :
    SignsFit previous tokens ↔
      ∀ before token after, tokens = before ++ token :: after → token.IsNegative →
        acceptsSign (before.getLast?.or previous) = true := by
  constructor
  · rintro h before token after rfl hnegative
    exact (signsFit_append.mp h).2.1 hnegative
  · intro h
    -- the token in front changes along the list, and so do the splits that end at a token
    induction tokens generalizing previous with
    | nil => trivial
    | cons token tokens ih =>
      refine ⟨h [] token tokens rfl, ih fun before token' after htokens hnegative => ?_⟩
      have haccepts := h (token :: before) token' after (by rw [htokens]; rfl) hnegative
      rwa [getLast?_cons_or] at haccepts

/-- A minus sign is a sign at the start and behind every operator but a closing parenthesis. -/
theorem acceptsSign_eq_true_iff :
    acceptsSign previous = true ↔
      previous = none ∨ ∃ op, previous = some (.operator op) ∧ op ≠ .rightParen := by
  cases previous with
  | none => exact iff_of_true rfl (Or.inl rfl)
  | some token => cases token <;> simp [acceptsSign]

/-- Behind an operator that is applied a minus sign is a sign. -/
theorem acceptsSign_of_isParen_eq_false {op : Operator} (h : op.isParen = false) :
    acceptsSign (some (.operator op)) = true := by
  refine acceptsSign_eq_true_iff.mpr (Or.inr ⟨op, rfl, ?_⟩)
  rintro rfl
  cases h

/-! ### One token -/

theorem splitSign_of_head {piece : List Char} (h : piece.head? ≠ some '-')
    (previous : Option Value) : splitSign previous piece = ([], piece) := by
  unfold splitSign
  split
  · exact absurd rfl h
  · rfl

/-- Where a minus sign is a sign, no piece is split. -/
theorem splitSign_of_acceptsSign (h : acceptsSign previous = true) (piece : List Char) :
    splitSign previous piece = ([], piece) := by
  unfold splitSign
  split
  · simp [h]
  · rfl

namespace Value

theorem classify_quoted_text (text : String) : classify (quoted text) = ofQuoted text.toList := by
  rw [← classify_quoted, ← toList_quoted, String.ofList_toList]

/-- **The literal of a token** is classified as the token. -/
theorem IsLexical.classify_literal {token : Value} (h : token.IsLexical) :
    classify token.literal = token := by
  cases token with
  | unknown text => exact absurd h id
  | number value => exact classify_digits value
  | boolean b => exact classify_boolean b
  | operator op => exact classify_symbol op
  | datetime text moment =>
    -- the text is kept as it is, since a moment can be written in several ways
    have hread : Moment.read? text.toList = some moment := Moment.read?_eq_some_iff.mpr h
    rw [literal, classify_quoted_text, ofQuoted, hread, String.ofList_toList]
  | string text =>
    rw [literal, classify_quoted_text]
    have hkind := h.2
    rw [classify_quoted_text] at hkind
    unfold ofQuoted at hkind ⊢
    split
    · -- then it would be a datetime
      rename_i hread
      rw [hread] at hkind
      exact absurd rfl hkind
    · rw [String.ofList_toList]
  | stringArray text =>
    have hclassify := classify_stringArray h.1
    rwa [String.ofList_toList] at hclassify

/-- The literal of a token is a piece from end to end. -/
theorem IsLexical.first_literal {token : Value} (h : token.IsLexical) :
    first token.literal.toList = token.literal.toList ∧ token.literal.toList ≠ [] := by
  cases token with
  | unknown text => exact absurd h id
  | number value =>
    have hdigits : (number value).literal.toList = value.digits := String.toList_ofList
    have hne := value.digits_ne_nil
    rw [hdigits, Lexeme.first_eq_number (by rwa [value.number_digits]), value.number_digits]
    exact ⟨rfl, hne⟩
  | boolean b => cases b <;> decide +kernel
  | operator op =>
    refine ⟨Lexeme.first_symbol op, ?_⟩
    cases op <;> decide
  | datetime text moment =>
    -- the quote that ends the piece is not one of the text
    have hquote : '"' ∉ text.toList := by
      intro hmem
      rcases h.isDigit_or_mem _ hmem with hdigit | hmark
      · exact absurd hdigit (by decide)
      · exact absurd hmark (by decide)
    rw [literal, toList_quoted]
    exact ⟨Lexeme.first_quotation hquote, by simp⟩
  | string text =>
    rw [literal, toList_quoted]
    exact ⟨Lexeme.first_quotation h.1, by simp⟩
  | stringArray text =>
    obtain ⟨-, inner, htext, hinner⟩ := h
    have hliteral : (stringArray text).literal.toList = '[' :: inner ++ [']'] := htext
    rw [hliteral]
    exact ⟨Lexeme.first_group hinner, by simp⟩

/-- Only a number with a minus sign has a literal that is split. -/
theorem IsLexical.splitSign_literal {token : Value} (h : token.IsLexical)
    (hsign : token.IsNegative → acceptsSign previous = true) :
    splitSign previous token.literal.toList = ([], token.literal.toList) := by
  cases token with
  | unknown text => exact absurd h id
  | number value =>
    -- a minus sign is kept where it is a sign, and else the text starts with a digit
    by_cases hnegative : '-' ∈ value.text.toList
    · exact splitSign_of_acceptsSign (hsign hnegative) _
    · refine splitSign_of_head (fun hhead => hnegative ?_) previous
      exact List.mem_of_head? hhead
  | boolean b => cases b <;> rfl
  | operator op => cases op <;> rfl
  | datetime text moment =>
    rw [literal, toList_quoted]
    rfl
  | string text =>
    rw [literal, toList_quoted]
    rfl
  | stringArray text =>
    obtain ⟨-, inner, htext, -⟩ := h
    have hliteral : (stringArray text).literal.toList = '[' :: inner ++ [']'] := htext
    rw [hliteral]
    rfl

theorem IsLexical.kind_ne_unknown {token : Value} (h : token.IsLexical) :
    token.kind ≠ .unknown := by
  cases token with
  | unknown text => exact absurd h id
  | _ => simp [kind]

end Value

/-- **The literal of a token** is read as the token, if its sign may stand where it does. -/
theorem readPiece?_literal {token : Value} (h : token.IsLexical)
    (hsign : token.IsNegative → acceptsSign previous = true) :
    readPiece? previous token.literal.toList = some [token] := by
  rw [readPiece?, h.splitSign_literal hsign]
  dsimp only
  rw [String.ofList_toList, h.classify_literal, if_neg h.kind_ne_unknown, List.nil_append]

/-- The literals of tokens whose signs fit are read as the tokens. -/
theorem readPieces?_literals (hlexical : ∀ token ∈ tokens, token.IsLexical)
    (hsigns : SignsFit previous tokens) :
    readPieces? previous (tokens.map (·.literal.toList)) = some tokens := by
  induction tokens generalizing previous with
  | nil => rfl
  | cons token tokens ih =>
    obtain ⟨htoken, htokens⟩ := List.forall_mem_cons.mp hlexical
    exact readPieces?_cons.mpr
      ⟨[token], tokens, readPiece?_literal htoken hsigns.1, ih htokens hsigns.2, rfl⟩

theorem toList_literals_cons_cons (token token' : Value) (tokens : List Value) :
    (Value.literals " " (token :: token' :: tokens)).toList
      = token.literal.toList ++ ' ' :: (Value.literals " " (token' :: tokens)).toList := by
  simp [Value.literals, String.toList_append]

/-- The pieces of literals with spaces between them are the literals. -/
theorem pieces_literals (hlexical : ∀ token ∈ tokens, token.IsLexical) :
    pieces (Value.literals " " tokens).toList = tokens.map (·.literal.toList) := by
  induction tokens with
  | nil => exact pieces_nil
  | cons token tokens ih =>
    obtain ⟨htoken, htokens⟩ := List.forall_mem_cons.mp hlexical
    obtain ⟨hwhole, hne⟩ := htoken.first_literal
    cases tokens with
    | nil =>
      have hsingle : Value.literals " " [token] = token.literal := by simp [Value.literals]
      rw [hsingle, pieces_whole hwhole hne]
      rfl
    | cons token' tokens =>
      -- the space behind a literal ends its piece and holds none itself
      rw [toList_literals_cons_cons, pieces_whole_append rfl hwhole hne, pieces_blank rfl,
        ih htokens]
      rfl

/-- An expression whose pieces are the literals of tokens has these tokens. -/
theorem tokenize_of_pieces {expression : String}
    (hpieces : pieces expression.toList = tokens.map (·.literal.toList)) (hne : tokens ≠ [])
    (hlexical : ∀ token ∈ tokens, token.IsLexical) (hsigns : SignsFit none tokens)
    (hmatched : tokens.foldlM depthAfter? 0 = some 0) :
    (tokenize expression).outcome = .ok tokens := by
  refine tokenize_eq_ok_iff.mpr ⟨?_, ?_, hmatched⟩
  · rw [Bool.eq_false_iff]
    intro hblank
    -- a blank text has no pieces, but there is a token
    rw [pieces_of_allBlank hblank] at hpieces
    exact hne (List.map_eq_nil_iff.mp hpieces.symm)
  · change readPieces? none (pieces expression.toList) = _
    rw [hpieces]
    exact readPieces?_literals hlexical hsigns

/-- **Tokens are read back** from their literals. -/
theorem Writable.tokenize_literals (h : Writable tokens) (hne : tokens ≠ []) :
    (tokenize (Value.literals " " tokens)).outcome = .ok tokens := by
  refine tokenize_of_pieces (pieces_literals h.lexical) hne h.lexical ?_ ?_
  · refine signsFit_iff.mpr fun before token after htokens hnegative => ?_
    rw [Option.or_none, acceptsSign_eq_true_iff, List.getLast?_eq_none_iff]
    exact h.signed before token after htokens hnegative
  · refine foldlM_depthAfter?_eq_some_iff.mpr ⟨fun before hbefore => ?_, ?_⟩
    · rw [Nat.zero_add]
      exact h.nested before hbefore
    · rw [Nat.zero_add, Nat.zero_add]
      exact h.balanced

/-! ### What is read -/

/-- What is left of a piece without its sign has one of the forms too. -/
theorem hasForm_splitSign {piece : List Char} (h : HasForm piece) (previous : Option Value) :
    HasForm (splitSign previous piece).2 := by
  unfold splitSign
  split
  · split
    · rename_i unsigned hsplit
      obtain ⟨d, ds, rfl, hd⟩ := h.of_minus hsplit.1
      exact .unsigned hd
    · exact h
  · exact h

/-- What a piece is classified as can be a token, if it is of known kind. -/
theorem isLexical_classify {piece : List Char} (h : HasForm piece)
    (hknown : (Value.classify (String.ofList piece)).kind ≠ .unknown) :
    (Value.classify (String.ofList piece)).IsLexical := by
  have hclassified := Value.classifiedAs_classify (String.ofList piece)
  generalize Value.classify (String.ofList piece) = token at hclassified hknown ⊢
  cases hclassified with
  | operator _ => trivial
  | @datetime inner m hquoted hmoment =>
    rw [Value.IsLexical, String.toList_ofList]
    exact Moment.read?_eq_some_iff.mp hmoment
  | @string inner hquoted hmoment =>
    rw [String.toList_ofList] at hquoted
    rw [Value.IsLexical, String.toList_ofList, Value.classify_quoted_text, String.toList_ofList,
      Value.ofQuoted, hmoment]
    refine ⟨?_, by simp [Value.kind]⟩
    rw [hquoted, List.cons_append] at h
    -- the piece ends at its second quote
    obtain ⟨inner', hinner, hquote⟩ := h.of_quote
    rwa [List.append_cancel_right hinner]
  | boolean _ => trivial
  | number _ _ => trivial
  | stringArray hshape =>
    have hwritten := StringArray.hasShape_iff.mp hshape
    refine ⟨hwritten, ?_⟩
    obtain ⟨items, -, hitems⟩ := hwritten
    rw [String.toList_ofList] at hitems ⊢
    rw [hitems, List.cons_append] at h
    -- the piece ends at its first closing bracket, so there is none inside
    obtain ⟨inner, hinner, hbrackets⟩ := h.of_bracket
    refine ⟨inner, ?_, hbrackets⟩
    rw [hitems, List.cons_append, hinner]
    rfl
  | unknown => exact absurd rfl hknown

/-- A number with a minus sign is read from a piece with a minus sign. -/
theorem eq_minus_of_isNegative {cs : List Char}
    (h : (Value.classify (String.ofList cs)).IsNegative) : ∃ ds, cs = '-' :: ds ∧ ds ≠ [] := by
  have hclassified := Value.classifiedAs_classify (String.ofList cs)
  generalize Value.classify (String.ofList cs) = token at hclassified h
  cases hclassified with
  | @number n d hnumeral hd =>
    -- the minus sign of the text is that of the coefficient, and this comes from the numeral
    have hnegative : d.coefficient < 0 := by
      rw [← d.minus_mem_digits, ← String.toList_ofList (l := d.digits)]
      exact h
    have hsign := Decimal.negative_of_ofNumeral? hd hnegative
    rw [String.toList_ofList] at hnumeral
    obtain ⟨hwhole, rfl⟩ := Numeral.read?_eq_some_iff.mp hnumeral
    rw [Numeral.chars, hsign]
    exact ⟨_, rfl, by simp [hwhole]⟩
  | _ => exact absurd h id

/-- A minus sign that is kept with its number is one that may stand where it does. -/
theorem acceptsSign_of_isNegative {piece : List Char} (hform : HasForm piece)
    (h : (Value.classify (String.ofList (splitSign previous piece).2)).IsNegative) :
    (splitSign previous piece).1 = [] ∧ acceptsSign previous = true := by
  obtain ⟨ds, hds, hne⟩ := eq_minus_of_isNegative h
  unfold splitSign at hds ⊢
  split at hds
  · rename_i unsigned
    split at hds
    · -- a piece has one sign at most
      rename_i hsplit
      change unsigned = '-' :: ds at hds
      obtain ⟨d, _, hunsigned, hd⟩ := hform.of_minus hsplit.1
      rw [hunsigned] at hds
      obtain ⟨rfl, -⟩ := List.cons.inj hds
      exact absurd hd (by decide)
    · rename_i hkept
      obtain ⟨-, rfl⟩ := List.cons.inj hds
      rw [if_neg hkept]
      exact ⟨rfl, by simpa [hne] using hkept⟩
  · rename_i hminus
    exact absurd hds (hminus ds)

/-- The sign of a number that a piece gives may stand where it does. -/
theorem signsFit_of_readPiece? {piece : List Char} (hform : HasForm piece)
    (h : readPiece? previous piece = some tokens) : SignsFit previous tokens := by
  have hsign : SignsFit previous (splitSign previous piece).1 := by
    rcases splitSign_fst previous piece with hnil | hminus
    · rw [hnil]
      trivial
    · rw [hminus]
      exact ⟨fun hnegative => absurd hnegative id, trivial⟩
  rcases eq_or_eq_of_readPiece? h with rfl | ⟨token, rfl, -, rfl⟩
  · exact hsign
  · -- a number that has kept its sign has none split off, so it comes after `previous` itself
    refine signsFit_append.mpr ⟨hsign, fun hnegative => ?_, trivial⟩
    obtain ⟨hnil, haccepts⟩ := acceptsSign_of_isNegative hform hnegative
    rwa [hnil]

theorem signsFit_of_readPieces? {pieces : List (List Char)}
    (hform : ∀ piece ∈ pieces, HasForm piece) (h : readPieces? previous pieces = some tokens) :
    SignsFit previous tokens := by
  induction pieces generalizing previous tokens with
  | nil =>
    cases h
    trivial
  | cons piece pieces ih =>
    obtain ⟨first, more, hfirst, hmore, rfl⟩ := readPieces?_cons.mp h
    obtain ⟨hpiece, hpieces⟩ := List.forall_mem_cons.mp hform
    exact signsFit_append.mpr ⟨signsFit_of_readPiece? hpiece hfirst, ih hpieces hmore⟩

theorem isLexical_of_readPiece? {piece : List Char} (hform : HasForm piece)
    (h : readPiece? previous piece = some tokens) : ∀ token ∈ tokens, token.IsLexical := by
  -- a minus sign that is split off is an operator, and the rest is classified
  refine forall_mem_of_readPiece? trivial (fun token htoken hknown => ?_) h
  subst htoken
  exact isLexical_classify (hasForm_splitSign hform previous) hknown

/-- **The tokens of an expression** are such as can be written. -/
theorem writable_of_tokenize {expression : String}
    (h : (tokenize expression).outcome = .ok tokens) : Writable tokens := by
  obtain ⟨-, hread, hmatched⟩ := tokenize_eq_ok_iff.mp h
  change readPieces? none (pieces expression.toList) = some tokens at hread
  -- forms are a matter of pieces, and everything else a matter of what is read from them
  have hform : ∀ piece ∈ pieces expression.toList, HasForm piece :=
    fun piece hpiece => hasForm_of_mem_pieces hpiece
  obtain ⟨hnested, hbalanced⟩ := foldlM_depthAfter?_eq_some_iff.mp hmatched
  refine ⟨?_, ?_, ?_, ?_⟩
  · exact forall_mem_of_readPieces?
      (fun piece hpiece _ _ hfirst => isLexical_of_readPiece? (hform piece hpiece) hfirst) hread
  · intro before token after htokens hnegative
    have haccepts := signsFit_iff.mp (signsFit_of_readPieces? hform hread) before token after
      htokens hnegative
    rwa [Option.or_none, acceptsSign_eq_true_iff, List.getLast?_eq_none_iff] at haccepts
  · intro before hbefore
    have hle := hnested before hbefore
    rwa [Nat.zero_add] at hle
  · rwa [Nat.zero_add, Nat.zero_add] at hbalanced

/-- **The tokens that expressions have** are writable, and writable tokens are read back from their
literals, each with the scale of its number and the text of its moment. -/
theorem tokenize_image :
    (∀ expression tokens, (tokenize expression).outcome = .ok tokens → Writable tokens) ∧
    ∀ tokens, tokens ≠ [] → Writable tokens →
      (tokenize (Value.literals " " tokens)).outcome = .ok tokens :=
  ⟨fun _ _ h => writable_of_tokenize h, fun _ hne h => h.tokenize_literals hne⟩

/-- The second minus sign is a subtraction, the others are signs, and they are again when the tokens
are written with spaces. -/
theorem tokenize_image_signed_difference :
    ∃ tokens, (tokenize "(-1.50--2 5)").outcome = .ok tokens ∧ Writable tokens ∧
      (tokenize "( -1.50 - -2 5 )").outcome = .ok tokens := by
  have htokens : (tokenize "(-1.50--2 5)").outcome = .ok [.operator .leftParen,
      .number ⟨-150, 2, by decide⟩, .operator .subtract, .number ⟨-2, 0, by decide⟩,
      .number ⟨5, 0, by decide⟩, .operator .rightParen] := by
    decide +kernel
  obtain ⟨hwritable, hback⟩ := tokenize_image
  have hread := hback _ (by simp) (hwritable _ _ htokens)
  have htext : Value.literals " " [.operator .leftParen, .number ⟨-150, 2, by decide⟩,
      .operator .subtract, .number ⟨-2, 0, by decide⟩, .number ⟨5, 0, by decide⟩,
      .operator .rightParen] = "( -1.50 - -2 5 )" := by
    decide +kernel
  rw [htext] at hread
  exact ⟨_, htokens, hwritable _ _ htokens, hread⟩

end RuleLang
