import RuleLang.Proofs.Acceptance
import RuleLang.Proofs.Literals
import RuleLang.Proofs.Lookahead
import RuleLang.Proofs.NumeralRange

/-!
# What becomes of every lexeme

Nothing of an expression is lost on the way to its tokens without a warning. The lexemes are walked
from left to right, and each is read by the one rule of `ReadAs` that its form and the last token in
front of it leave. An operator, a truth value and a quoted text are always the one token that they
are a literal of. A numeral always gives a number, with a subtraction in front of it where its minus
sign is one (`SplitsSign`). Only a number that ends in its point and a group that is no string array
are discarded, with one warning each, and of such a number a subtraction stays.

The other way round, `exists_readAs_or_outOfRange` says that every lexeme has a rule, unless it is a
numeral out of range, and `ReadAs.unique` that it has no second one. So the walk exists and is the
only one (`tokenize_walk`).

A numeral out of range ends the walk, and whether there is one shows in the texts of the lexemes
alone. It is reported unless the walk has ended before, at a closing parenthesis that has none to
match (`ClosesWithin`, `numberOutOfRange_iff`).
-/

namespace RuleLang

open Lexeme (first HasForm)

/-- How a minus sign in front of a numeral is read after the token `previous`: the tokens that it
gives, and the numeral that is left. -/
inductive SplitsSign (previous : Option Value) : Numeral → List Value → Numeral → Prop where
  /-- Behind an operand or a closing parenthesis it is a subtraction. -/
  | subtraction {n : Numeral} (hnegative : n.negative = true)
      (hprevious : previous.any Value.endsOperand = true) :
      SplitsSign previous n [.operator .subtract] { n with negative := false }
  | sign {n : Numeral} (h : n.negative = true → previous.any Value.endsOperand = false) :
      SplitsSign previous n [] n

/-- **What a lexeme is read as** after the token `previous`: its tokens and the warnings. -/
inductive ReadAs (previous : Option Value) : Lexeme → List Value → List Record → Prop where
  | symbol (op : Operator) (offset : Nat) :
      ReadAs previous ⟨op.symbol.toList, offset⟩ [.operator op] []
  | truth {word : String} {b : Bool}
      (hword : (word, b) ∈ [("True", true), ("true", true), ("False", false), ("false", false)])
      (offset : Nat) : ReadAs previous ⟨word.toList, offset⟩ [.boolean b] []
  /-- A moment, if the text is that of one, and else a string. -/
  | quotation {inner : List Char} (hinner : '"' ∉ inner) (offset : Nat) :
      ReadAs previous ⟨'"' :: inner ++ ['"'], offset⟩ [.ofQuoted inner] []
  | array {text : List Char} (hwritten : StringArray.IsWritten text) (offset : Nat) :
      ReadAs previous ⟨text, offset⟩ [.stringArray (String.ofList text)] []
  | number {n left : Numeral} {sign : List Value} {d : Decimal} (hwhole : n.whole ≠ [])
      (hsign : SplitsSign previous n sign left) (hd : Decimal.ofNumeral? left = some d)
      (offset : Nat) : ReadAs previous ⟨n.chars, offset⟩ (sign ++ [.number d]) []
  /-- A number that ends in its point is discarded, but not a subtraction in front of it. -/
  | pointed {n left : Numeral} {sign : List Value} (hwhole : n.whole ≠ [])
      (hfraction : n.fraction = []) (hsign : SplitsSign previous n sign left) (offset : Nat) :
      ReadAs previous ⟨n.chars ++ ['.'], offset⟩ sign
        [.discarded (String.ofList (left.chars ++ ['.'])) offset]
  | group {inner : List Char} (hinner : '[' ∉ inner ∧ ']' ∉ inner)
      (hwritten : ¬ StringArray.IsWritten ('[' :: inner ++ [']'])) (offset : Nat) :
      ReadAs previous ⟨'[' :: inner ++ [']'], offset⟩ []
        [.discarded (String.ofList ('[' :: inner ++ [']'])) offset]

/-- **The walk over lexemes** that come after the token `previous`, with all tokens and warnings. -/
inductive Walk : Option Value → List Lexeme → List Value → List Record → Prop where
  | nil (previous : Option Value) : Walk previous [] [] []
  | cons {previous : Option Value} {lexeme : Lexeme} {lexemes : List Lexeme}
      {tokens more : List Value} {warnings others : List Record}
      (hread : ReadAs previous lexeme tokens warnings)
      (hrest : Walk (tokens.getLast?.or previous) lexemes more others) :
      Walk previous (lexeme :: lexemes) (tokens ++ more) (warnings ++ others)

/-- A lexeme that is a numeral out of range. -/
def Lexeme.OutOfRange (lexeme : Lexeme) : Prop :=
  ∃ n : Numeral, n.whole ≠ [] ∧ lexeme.text = n.chars ∧ n.OutOfRange

/-- With `depth` parentheses open in front of some lexemes, none of them closes one that is not
open. -/
def ClosesWithin (depth : Nat) (lexemes : List Lexeme) : Prop :=
  ∀ front, front <+: lexemes →
    front.countP (·.text = [')']) ≤ depth + front.countP (·.text = ['('])

variable {previous : Option Value} {lexeme : Lexeme} {tokens : List Value}
  {warnings : List Record} {depth : Nat}

/-! ### Signs -/

/-- A sign is accepted everywhere but behind the end of an operand. -/
theorem acceptsSign_eq (previous : Option Value) :
    acceptsSign previous = !previous.any Value.endsOperand := by
  cases previous with
  | none => rfl
  | some token =>
    cases token with
    | operator op => cases op <;> rfl
    | _ => rfl

/-- Behind an operand, a minus sign is split off from what it stands in front of. -/
theorem splitSign_behind_operand {unsigned : List Char}
    (hoperand : previous.any Value.endsOperand = true) (hne : unsigned ≠ []) :
    splitSign previous ('-' :: unsigned) = ([.operator .subtract], unsigned) := by
  rw [splitSign, acceptsSign_eq, hoperand]
  exact if_pos ⟨hne, rfl⟩

/-- Anywhere else the text stays whole. -/
theorem splitSign_of_not_behind_operand {text : List Char}
    (h : ¬ (text.head? = some '-' ∧ previous.any Value.endsOperand = true)) :
    splitSign previous text = ([], text) := by
  rcases not_and_or.mp h with hhead | hoperand
  · exact splitSign_of_head hhead previous
  · refine splitSign_of_acceptsSign ?_ text
    rw [acceptsSign_eq, Bool.eq_false_iff.mpr hoperand]
    rfl

namespace SplitsSign

variable {n left : Numeral} {sign : List Value}

/-- Every numeral is split in one of the two ways, after any token. -/
theorem exists_left (previous : Option Value) (n : Numeral) :
    ∃ sign left, SplitsSign previous n sign left := by
  by_cases h : n.negative = true ∧ previous.any Value.endsOperand = true
  · exact ⟨_, _, .subtraction h.1 h.2⟩
  · exact ⟨_, _, .sign fun hnegative => by simpa [hnegative] using h⟩

/-- The digits are left as they are. -/
theorem digits_eq (h : SplitsSign previous n sign left) :
    left.whole = n.whole ∧ left.fraction = n.fraction := by
  cases h with
  | subtraction _ _ => exact ⟨rfl, rfl⟩
  | sign _ => exact ⟨rfl, rfl⟩

/-- The sign is split off so, whatever stands behind the numeral. -/
theorem splitSign_append (h : SplitsSign previous n sign left) (hwhole : n.whole ≠ [])
    (rest : List Char) : splitSign previous (n.chars ++ rest) = (sign, left.chars ++ rest) := by
  cases h with
  | subtraction hnegative hprevious =>
    have hchars : n.chars = '-' :: ({ n with negative := false } : Numeral).chars := by
      rw [Numeral.chars, Numeral.chars, hnegative]
      rfl
    -- a minus sign alone would not be split off, but digits follow it
    have hne : ({ n with negative := false } : Numeral).chars ++ rest ≠ [] := by
      simp [Numeral.chars, hwhole]
    rw [hchars, List.cons_append, splitSign_behind_operand hprevious hne]
  | sign hsign =>
    refine splitSign_of_not_behind_operand ?_
    rintro ⟨hhead, hoperand⟩
    -- where a sign would be split off, the numeral has none, and so it starts with a digit
    have hnegative : n.negative = false := by
      rw [Bool.eq_false_iff]
      intro hnegative
      rw [hsign hnegative] at hoperand
      cases hoperand
    obtain ⟨d, ds, hds⟩ := List.exists_cons_of_ne_nil hwhole
    simp [Numeral.chars, hnegative, hds, d.char_ne (c := '-') rfl] at hhead

end SplitsSign

/-! ### From the rules to the code -/

/-- A literal that is split off gives its token, and there is nothing to warn of. -/
theorem read_of_classify {text literal : List Char} {sign : List Value} {token : Value}
    (hsplit : splitSign previous text = (sign, literal))
    (hclassify : Value.classify (String.ofList literal) = token) (hknown : token.kind ≠ .unknown)
    (offset : Nat) :
    readPiece? previous text = some (sign ++ [token]) ∧
      warningsAbout previous ⟨text, offset⟩ = [] := by
  rw [readPiece?, warningsAbout, hsplit]
  dsimp only
  rw [hclassify, if_neg hknown, if_neg hknown]
  exact ⟨rfl, rfl⟩

/-- What is left and is no literal is warned of, and nothing but the sign is kept. If it is a
numeral all the same, there are no tokens at all. -/
theorem read_of_unknown {text literal : List Char} {sign : List Value}
    (hsplit : splitSign previous text = (sign, literal))
    (hclassify : Value.classify (String.ofList literal) = .unknown (String.ofList literal))
    (offset : Nat) :
    readPiece? previous text = (if (Numeral.read? literal).isSome then none else some sign) ∧
      warningsAbout previous ⟨text, offset⟩ = [.discarded (String.ofList literal) offset] := by
  rw [readPiece?, warningsAbout, hsplit]
  dsimp only
  rw [hclassify]
  exact ⟨rfl, rfl⟩

/-- What is neither a literal nor a numeral is left out, with a warning. -/
theorem read_of_discarded {text literal : List Char} {sign : List Value}
    (hsplit : splitSign previous text = (sign, literal))
    (hclassify : Value.classify (String.ofList literal) = .unknown (String.ofList literal))
    (hnumeral : Numeral.read? literal = none) (offset : Nat) :
    readPiece? previous text = some sign ∧
      warningsAbout previous ⟨text, offset⟩ = [.discarded (String.ofList literal) offset] := by
  obtain ⟨hread, hwarnings⟩ := read_of_unknown hsplit hclassify offset
  rw [hnumeral] at hread
  exact ⟨hread, hwarnings⟩

/-- A number that ends in its point is no literal. -/
theorem read_pointed {n : Numeral} :
    Numeral.read? (n.chars ++ ['.']) = none ∧
      Value.classify (String.ofList (n.chars ++ ['.']))
        = .unknown (String.ofList (n.chars ++ ['.'])) := by
  -- all other texts end in another character
  generalize htext : n.chars ++ ['.'] = text
  have hlast : text.getLast? = some '.' := by rw [← htext, List.getLast?_concat]
  have hnumeral : Numeral.read? text = none := by
    rw [Option.eq_none_iff_forall_ne_some]
    intro n' hn'
    -- a numeral ends in a digit
    obtain ⟨hwhole, rfl⟩ := Numeral.read?_eq_some_iff.mp hn'
    obtain ⟨front, d, hfront⟩ := Numeral.exists_last_digit hwhole
    rw [hfront, List.getLast?_concat] at hlast
    exact d.char_ne rfl (Option.some.inj hlast)
  refine ⟨hnumeral, Value.classify_eq_unknown ?_ ?_ ?_ hnumeral ?_⟩
  · rintro op rfl
    cases op <;> exact absurd hlast (by decide)
  · rw [Option.eq_none_iff_forall_ne_some]
    intro inner hinner
    rw [unquote?_eq_some_iff.mp hinner, List.getLast?_concat] at hlast
    exact absurd hlast (by decide)
  · rintro word hword rfl
    have hne : ∀ word ∈ ["True", "true", "False", "false"], word.toList.getLast? ≠ some '.' := by
      decide
    exact hne word hword hlast
  · rw [Bool.eq_false_iff]
    intro hshape
    obtain ⟨items, -, rfl⟩ := StringArray.hasShape_iff.mp hshape
    rw [List.getLast?_concat] at hlast
    exact absurd hlast (by decide)

namespace ReadAs

/-- **A rule gives the tokens and warnings** that the code does. -/
theorem read (h : ReadAs previous lexeme tokens warnings) :
    readPiece? previous lexeme.text = some tokens ∧ warningsAbout previous lexeme = warnings := by
  -- by rule; each says what is split off, and the literal that is left settles the rest
  cases h with
  | symbol op offset =>
    have hsplit : splitSign previous op.symbol.toList = ([], op.symbol.toList) := by
      cases op <;> rfl
    have hclassify : Value.classify (String.ofList op.symbol.toList) = .operator op := by
      rw [String.ofList_toList, classify_symbol]
    exact read_of_classify hsplit hclassify (by simp [Value.kind]) offset
  | @truth word b hword offset =>
    obtain ⟨hsplit, hclassify⟩ : splitSign previous word.toList = ([], word.toList) ∧
        Value.classify (String.ofList word.toList) = .boolean b := by
      simp only [List.mem_cons, Prod.mk.injEq, List.not_mem_nil, or_false] at hword
      rcases hword with ⟨rfl, rfl⟩ | ⟨rfl, rfl⟩ | ⟨rfl, rfl⟩ | ⟨rfl, rfl⟩ <;> exact ⟨rfl, rfl⟩
    exact read_of_classify hsplit hclassify (by simp [Value.kind]) offset
  | @quotation inner hinner offset =>
    have hsplit : splitSign previous ('"' :: inner ++ ['"']) = ([], '"' :: inner ++ ['"']) := rfl
    refine read_of_classify hsplit (Value.classify_quoted inner) ?_ offset
    unfold Value.ofQuoted
    split <;> simp [Value.kind]
  | @array text hwritten offset =>
    have hsplit : splitSign previous text = ([], text) := by
      obtain ⟨items, -, rfl⟩ := hwritten
      rfl
    exact read_of_classify hsplit (Value.classify_stringArray hwritten) (by simp [Value.kind])
      offset
  | @number n left sign d hwhole hsign hd offset =>
    have hsplit := hsign.splitSign_append hwhole []
    rw [List.append_nil, List.append_nil] at hsplit
    -- the digits that are left are a numeral again, the one whose value is in range
    have hread : Numeral.read? left.chars = some left :=
      Numeral.read?_eq_some_iff.mpr ⟨by rwa [hsign.digits_eq.1], rfl⟩
    exact read_of_classify hsplit (Value.classify_numeral hread hd) (by simp [Value.kind]) offset
  | @pointed n left sign hwhole hfraction hsign offset =>
    obtain ⟨hnumeral, hclassify⟩ := read_pointed (n := left)
    exact read_of_discarded (hsign.splitSign_append hwhole ['.']) hclassify hnumeral offset
  | @group inner hinner hwritten offset =>
    have hsplit : splitSign previous ('[' :: inner ++ [']']) = ([], '[' :: inner ++ [']']) := rfl
    have hshape : ¬ StringArray.hasShape ('[' :: inner ++ [']']) = true :=
      mt StringArray.hasShape_iff.mp hwritten
    have hclassify := (Value.classify_bracket (inner ++ [']'])).trans (if_neg hshape)
    exact read_of_discarded hsplit hclassify rfl offset

/-- There is no second way to read a lexeme. -/
theorem unique (h : ReadAs previous lexeme tokens warnings) {tokens' : List Value}
    {warnings' : List Record} (h' : ReadAs previous lexeme tokens' warnings') :
    tokens' = tokens ∧ warnings' = warnings := by
  obtain ⟨htokens, hwarnings⟩ := h.read
  obtain ⟨htokens', hwarnings'⟩ := h'.read
  exact ⟨Option.some.inj (htokens'.symm.trans htokens), hwarnings'.symm.trans hwarnings⟩

end ReadAs

/-- A numeral out of range has no tokens. -/
theorem Lexeme.OutOfRange.readPiece?_eq_none (h : lexeme.OutOfRange) (previous : Option Value) :
    readPiece? previous lexeme.text = none := by
  obtain ⟨n, hwhole, htext, hrange⟩ := h
  obtain ⟨sign, left, hsign⟩ := SplitsSign.exists_left previous n
  obtain ⟨hleft, hfraction⟩ := hsign.digits_eq
  have hsplit := hsign.splitSign_append hwhole []
  rw [List.append_nil, List.append_nil] at hsplit
  have hnumeral : Numeral.read? left.chars = some left :=
    Numeral.read?_eq_some_iff.mpr ⟨by rwa [hleft], rfl⟩
  -- the range is a matter of the digits, and the sign that is split off is none of them
  have hnone : Decimal.ofNumeral? left = none :=
    Decimal.ofNumeral?_eq_none_iff.mpr ((Numeral.outOfRange_congr hleft hfraction).mpr hrange)
  have hclassify := Value.classify_of_numeral hnumeral
  rw [hnone] at hclassify
  rw [htext, (read_of_unknown hsplit hclassify lexeme.offset).1, hnumeral]
  rfl

/-- A lexeme that has a rule is in range. -/
theorem ReadAs.not_outOfRange (h : ReadAs previous lexeme tokens warnings) :
    ¬ lexeme.OutOfRange := by
  intro hrange
  have hnone := hrange.readPiece?_eq_none previous
  rw [h.read.1] at hnone
  cases hnone

/-- **Every lexeme has a rule**, unless it is a numeral out of range. -/
theorem exists_readAs_or_outOfRange {cs : List Char} (h : lexeme.text ∈ pieces cs)
    (previous : Option Value) :
    (∃ tokens warnings, ReadAs previous lexeme tokens warnings) ∨ lexeme.OutOfRange := by
  obtain ⟨text, offset⟩ := lexeme
  obtain ⟨behind, rfl, hne⟩ := exists_of_mem_pieces h
  -- only a numeral can be cut short by its point or be out of range; all other forms are those of
  -- the rules
  by_cases hnumber : Lexeme.number behind = []
  · have hform := Lexeme.hasForm_first hne
    obtain ⟨rest, hrest⟩ := Lexeme.first_isPrefix behind
    -- the text of the lexeme is all that its form speaks of
    generalize first behind = text at hform hrest
    subst hrest
    left
    cases hform with
    | unsigned hd => exact absurd hnumber (Lexeme.number_ne_nil_of_isDigit hd _).1
    | signed hd => exact absurd hnumber (Lexeme.number_ne_nil_of_isDigit hd _).2
    | quotation hinner => exact ⟨_, _, .quotation hinner offset⟩
    | @truth word hword =>
      have hvalue : ∀ word ∈ ["True", "False", "true", "false"], ∃ b, (word, b) ∈
          [("True", true), ("true", true), ("False", false), ("false", false)] := by
        simp
      obtain ⟨b, hb⟩ := hvalue word hword
      exact ⟨_, _, .truth hb offset⟩
    | symbol op => exact ⟨_, _, .symbol op offset⟩
    | @group inner hinner =>
      by_cases hwritten : StringArray.IsWritten ('[' :: inner ++ [']'])
      · exact ⟨_, _, .array hwritten offset⟩
      · exact ⟨_, _, .group hinner hwritten offset⟩
  · rw [Lexeme.first_eq_number hnumber]
    obtain ⟨n, hwhole, htext | ⟨hfraction, htext⟩⟩ := Numeral.exists_of_number_ne_nil hnumber
    · obtain ⟨sign, left, hsign⟩ := SplitsSign.exists_left previous n
      -- in range or not is decided after the sign is split off, and said of the numeral with its
      -- sign
      cases hd : Decimal.ofNumeral? left with
      | none =>
        obtain ⟨hleft, hfraction⟩ := hsign.digits_eq
        rw [Decimal.ofNumeral?_eq_none_iff, Numeral.outOfRange_congr hleft hfraction] at hd
        exact Or.inr ⟨n, hwhole, htext, hd⟩
      | some d =>
        rw [htext]
        exact Or.inl ⟨_, _, .number hwhole hsign hd offset⟩
    · obtain ⟨sign, left, hsign⟩ := SplitsSign.exists_left previous n
      rw [htext]
      exact Or.inl ⟨_, _, .pointed hwhole hfraction hsign offset⟩

/-! ### Parentheses -/

/-- Parentheses are opened and closed by the lexemes `(` and `)`, and by no other ones. -/
theorem ReadAs.depthAfter (h : ReadAs previous lexeme tokens warnings) :
    lexeme.text = ['('] ∧ tokens = [.operator .leftParen] ∨
    lexeme.text = [')'] ∧ tokens = [.operator .rightParen] ∨
    lexeme.text ∉ [['('], [')']] ∧ ∀ depth, tokens.foldlM depthAfter? depth = some depth := by
  -- a numeral ends in a digit, so it is no parenthesis
  have hdigits {n : Numeral} (hwhole : n.whole ≠ []) : n.chars ∉ [['('], [')']] := by
    obtain ⟨front, d, hfront⟩ := Numeral.exists_last_digit hwhole
    have hopening := d.char_ne (c := '(') rfl
    have hclosing := d.char_ne (c := ')') rfl
    rw [hfront]
    simp [List.append_eq_singleton_iff, hopening, hclosing]
  -- the sign that is split off is a subtraction, if anything
  have hdepth {n left : Numeral} {sign : List Value} (hsign : SplitsSign previous n sign left)
      (depth : Nat) : sign.foldlM depthAfter? depth = some depth := by
    cases hsign <;> rfl
  cases h with
  | symbol op offset =>
    cases op with
    | leftParen => exact Or.inl ⟨rfl, rfl⟩
    | rightParen => exact Or.inr (Or.inl ⟨rfl, rfl⟩)
    | _ => exact Or.inr (Or.inr ⟨by dsimp only; decide, fun _ => rfl⟩)
  | truth hword offset =>
    refine Or.inr (Or.inr ⟨?_, fun _ => rfl⟩)
    simp only [List.mem_cons, Prod.mk.injEq, List.not_mem_nil, or_false] at hword
    rcases hword with ⟨rfl, rfl⟩ | ⟨rfl, rfl⟩ | ⟨rfl, rfl⟩ | ⟨rfl, rfl⟩ <;> dsimp only <;> decide
  | @quotation inner hinner offset =>
    refine Or.inr (Or.inr ⟨by simp, fun depth => ?_⟩)
    unfold Value.ofQuoted
    split <;> rfl
  | array hwritten offset =>
    obtain ⟨items, -, rfl⟩ := hwritten
    exact Or.inr (Or.inr ⟨by simp, fun _ => rfl⟩)
  | number hwhole hsign hd offset =>
    refine Or.inr (Or.inr ⟨hdigits hwhole, fun depth => ?_⟩)
    rw [List.foldlM_append, hdepth hsign]
    rfl
  | pointed hwhole hfraction hsign offset =>
    exact Or.inr (Or.inr ⟨by simp [List.append_eq_singleton_iff], hdepth hsign⟩)
  | group hinner hwritten offset => exact Or.inr (Or.inr ⟨by simp, fun _ => rfl⟩)

/-- **Behind one lexeme** no parenthesis may be closed that is not open after its tokens. -/
theorem ReadAs.closesWithin_cons_iff (h : ReadAs previous lexeme tokens warnings)
    {lexemes : List Lexeme} :
    ClosesWithin depth (lexeme :: lexemes) ↔
      ∃ depth', tokens.foldlM depthAfter? depth = some depth' ∧ ClosesWithin depth' lexemes := by
  have hfront : ClosesWithin depth (lexeme :: lexemes) ↔ ∀ front, front <+: lexemes →
      (lexeme :: front).countP (·.text = [')'])
        ≤ depth + (lexeme :: front).countP (·.text = ['(']) :=
    forall_prefix_cons_iff (Nat.zero_le _)
  -- it is enough that the lexeme counts as its tokens do
  have hcongr {depth' : Nat} (hdepth : tokens.foldlM depthAfter? depth = some depth')
      (hcount : ∀ front : List Lexeme, (lexeme :: front).countP (·.text = [')'])
          ≤ depth + (lexeme :: front).countP (·.text = ['(']) ↔
        front.countP (·.text = [')']) ≤ depth' + front.countP (·.text = ['('])) :
      ClosesWithin depth (lexeme :: lexemes) ↔
        ∃ depth', tokens.foldlM depthAfter? depth = some depth' ∧ ClosesWithin depth' lexemes := by
    rw [hfront, hdepth]
    simp only [Option.some.injEq, exists_eq_left', ClosesWithin]
    exact forall₂_congr fun front _ => hcount front
  rcases h.depthAfter with ⟨htext, rfl⟩ | ⟨htext, rfl⟩ | ⟨htext, hdepth⟩
  · have hdepth : [Value.operator .leftParen].foldlM depthAfter? depth = some (depth + 1) := rfl
    refine hcongr hdepth fun front => ?_
    rw [List.countP_cons_of_neg (by simp [htext]), List.countP_cons_of_pos (by simp [htext])]
    omega
  · by_cases hzero : depth = 0
    · -- nothing is open, so this lexeme is already one too many
      refine iff_of_false (fun hcloses => ?_) ?_
      · have hle := hfront.mp hcloses [] List.nil_prefix
        rw [List.countP_cons_of_pos (by simp [htext]), List.countP_cons_of_neg (by simp [htext]),
          hzero] at hle
        exact absurd hle (by simp)
      · simp [depthAfter?, hzero]
    · have hdepth : [Value.operator .rightParen].foldlM depthAfter? depth = some (depth - 1) := by
        simp [depthAfter?, hzero]
      refine hcongr hdepth fun front => ?_
      rw [List.countP_cons_of_pos (by simp [htext]), List.countP_cons_of_neg (by simp [htext])]
      omega
  · obtain ⟨hopening, hclosing⟩ : lexeme.text ≠ ['('] ∧ lexeme.text ≠ [')'] := by simpa using htext
    refine hcongr (hdepth depth) fun front => ?_
    rw [List.countP_cons_of_neg (by simp [hclosing]), List.countP_cons_of_neg (by simp [hopening])]

/-! ### The walk -/

/-- What is looked for in a list whose first element it is not. -/
theorem exists_append_cons_iff {α : Type} {P : α → Prop} {Q : List α → Prop} {first : α}
    {as : List α} (hfirst : ¬ P first) :
    (∃ before a after, first :: as = before ++ a :: after ∧ P a ∧ Q before) ↔
      ∃ before a after, as = before ++ a :: after ∧ P a ∧ Q (first :: before) := by
  constructor
  · rintro ⟨_ | ⟨_, before⟩, a, after, hparts, ha, hbefore⟩
    · obtain ⟨rfl, -⟩ := List.cons.inj hparts
      exact absurd ha hfirst
    · obtain ⟨rfl, hbehind⟩ := List.cons.inj hparts
      exact ⟨before, a, after, hbehind, ha, hbefore⟩
  · rintro ⟨before, a, after, rfl, ha, hbefore⟩
    exact ⟨first :: before, a, after, rfl, ha, hbefore⟩

section Lexemes

variable {lexemes : List Lexeme}

/-- There is one walk at most. -/
theorem Walk.unique (h : Walk previous lexemes tokens warnings) {tokens' : List Value}
    {warnings' : List Record} (h' : Walk previous lexemes tokens' warnings') :
    tokens' = tokens ∧ warnings' = warnings := by
  -- what the first lexeme is read as is what the others come after, so both walks go on alike
  induction h generalizing tokens' warnings' with
  | nil previous =>
    cases h'
    exact ⟨rfl, rfl⟩
  | cons hread _ ih =>
    cases h' with
    | cons hread' hrest' =>
      obtain ⟨rfl, rfl⟩ := hread.unique hread'
      obtain ⟨rfl, rfl⟩ := ih hrest'
      exact ⟨rfl, rfl⟩

variable {cs : List Char} (hpieces : ∀ lexeme ∈ lexemes, lexeme.text ∈ pieces cs)
include hpieces

/-- **Lexemes that have tokens are walked** over from end to end, and the warnings of the walk are
what is noted. -/
theorem walk_of_tokensFrom (h : (tokensFrom previous depth lexemes).outcome = .ok tokens) :
    Walk previous lexemes tokens (tokensFrom previous depth lexemes).records := by
  induction lexemes generalizing previous depth tokens with
  | nil =>
    rw [tokensFrom] at h ⊢
    split at h
    · cases h
      rw [if_pos ‹_›]
      exact .nil previous
    · cases h
  | cons lexeme lexemes ih =>
    obtain ⟨hlexeme, hlexemes⟩ := List.forall_mem_cons.mp hpieces
    rw [tokensFrom_cons] at h ⊢
    -- a lexeme has a rule or ends the tokens with an error, and there is none
    rcases exists_readAs_or_outOfRange hlexeme previous with ⟨first, warnings, hread⟩ | hrange
    · rw [hread.read.1] at h ⊢
      dsimp only at h ⊢
      cases hdepth : first.foldlM depthAfter? depth with
      | none =>
        rw [hdepth] at h
        cases h
      | some depth' =>
        rw [hdepth] at h
        dsimp only at h ⊢
        obtain ⟨more, hmore, rfl⟩ := exists_of_map_eq_ok h
        rw [hread.read.2]
        exact .cons hread (ih hlexemes hmore)
    · rw [hrange.readPiece?_eq_none] at h
      cases h

/-- **A numeral out of range is reported** just where none of the lexemes in front of it closes a
parenthesis that is not open. -/
theorem numberOutOfRange_iff (previous : Option Value) :
    (∃ numeral offset, (tokensFrom previous depth lexemes).outcome
        = .error (.malformed (.numberOutOfRange numeral offset))) ↔
      ∃ before lexeme after, lexemes = before ++ lexeme :: after ∧ lexeme.OutOfRange ∧
        ClosesWithin depth before := by
  induction lexemes generalizing previous depth with
  | nil =>
    refine iff_of_false ?_ (by simp)
    rintro ⟨numeral, offset, herror⟩
    rw [tokensFrom] at herror
    split at herror <;> cases herror
  | cons first lexemes ih =>
    obtain ⟨hfirst, hlexemes⟩ := List.forall_mem_cons.mp hpieces
    rw [tokensFrom_cons]
    rcases exists_readAs_or_outOfRange hfirst previous with ⟨tokens, warnings, hread⟩ | hrange
    · -- there are tokens of the first lexeme, so it comes in front of the one out of range
      rw [exists_append_cons_iff hread.not_outOfRange, hread.read.1]
      simp only [hread.closesWithin_cons_iff]
      -- a parenthesis closed too early is reported first, and then nothing is said of the range
      cases tokens.foldlM depthAfter? depth with
      | none =>
        refine iff_of_false ?_ (by simp)
        rintro ⟨numeral, offset, herror⟩
        cases herror
      | some depth' =>
        simp only [Option.some.injEq, exists_eq_left', map_eq_error_iff]
        exact ih hlexemes _
    · rw [hrange.readPiece?_eq_none]
      refine iff_of_true ⟨_, _, rfl⟩ ⟨[], first, lexemes, rfl, hrange, ?_⟩
      intro front hfront
      rw [List.prefix_nil.mp hfront]
      exact Nat.zero_le _

end Lexemes

/-- **What becomes of the lexemes of an expression.** If it has tokens, these are the tokens of the
one walk over its lexemes, and its warnings are all that is noted in front of them. It has none
because of a numeral out of range exactly if there is one in front of which no parenthesis is closed
that is not open. -/
theorem tokenize_walk (expression : String) :
    (∀ tokens, (tokenize expression).outcome = .ok tokens → ∃ warnings,
      tokenize expression = ⟨warnings ++ [.tokenized expression tokens], .ok tokens⟩ ∧
        ∀ tokens' warnings', Walk none (lexemes expression) tokens' warnings' ↔
          tokens' = tokens ∧ warnings' = warnings) ∧
    ((∃ numeral offset, (tokenize expression).outcome
        = .error (.malformed (.numberOutOfRange numeral offset))) ↔
      ∃ before lexeme after, lexemes expression = before ++ lexeme :: after ∧
        lexeme.OutOfRange ∧ ClosesWithin 0 before) := by
  have hpieces : ∀ lexeme ∈ lexemes expression, lexeme.text ∈ pieces expression.toList :=
    fun lexeme hlexeme => List.mem_map_of_mem hlexeme
  by_cases hblank : allBlank expression.toList = true
  · have hfail : tokenize expression = .fail .emptyExpression := by rw [tokenize, if_pos hblank]
    rw [hfail]
    refine ⟨fun tokens h => (by cases h), iff_of_false ?_ ?_⟩
    · rintro ⟨numeral, offset, herror⟩
      cases herror
    · rintro ⟨before, lexeme, after, hparts, -⟩
      have hmem := hpieces lexeme (by rw [hparts]; simp)
      rw [pieces_of_allBlank hblank] at hmem
      cases hmem
  · rw [← numberOutOfRange_iff hpieces none, tokenize, if_neg hblank]
    cases houtcome : (tokensFrom none 0 (lexemes expression)).outcome with
    | error e =>
      rw [Logged.bind_eq_of_error houtcome]
      exact ⟨fun tokens h => (by cases h), Iff.rfl⟩
    | ok tokens =>
      rw [Logged.bind_eq_of_ok houtcome]
      refine ⟨fun tokens' h => ?_, ?_⟩
      · -- the walk is there, and it is the only one
        obtain rfl : tokens = tokens' := Except.ok.inj h
        have hwalk := walk_of_tokensFrom hpieces houtcome
        refine ⟨_, rfl, fun tokens' warnings' => ⟨hwalk.unique, ?_⟩⟩
        rintro ⟨rfl, rfl⟩
        exact hwalk
      · refine iff_of_false ?_ ?_
        · rintro ⟨numeral, offset, herror⟩
          cases herror
        · rintro ⟨numeral, offset, herror⟩
          cases herror

/-- In `(1)-2.[x]` the subtraction is kept, while the number and the group behind it are discarded.
In the other expression the numeral is out of range by its fraction alone, and the parenthesis that
closes nothing comes too late to be reported in its place. -/
theorem tokenize_walk_discarded_operand :
    (∃ tokens, (tokenize "(1)-2.[x]").outcome = .ok tokens ∧
      Walk none (lexemes "(1)-2.[x]") tokens [.discarded "2." 3, .discarded "[x]" 6]) ∧
    ∃ numeral offset, (tokenize "1+79228162514264337593543950335.5)").outcome
      = .error (.malformed (.numberOutOfRange numeral offset)) := by
  constructor
  · have htokens : (tokenize "(1)-2.[x]").outcome = .ok [.operator .leftParen,
        .number ⟨1, 0, by decide⟩, .operator .rightParen, .operator .subtract] := by
      decide +kernel
    have hrecords : (tokenize "(1)-2.[x]").records = [.discarded "2." 3, .discarded "[x]" 6,
        .tokenized "(1)-2.[x]" [.operator .leftParen, .number ⟨1, 0, by decide⟩,
          .operator .rightParen, .operator .subtract]] := by
      decide +kernel
    obtain ⟨warnings, hrun, hwalk⟩ := (tokenize_walk "(1)-2.[x]").1 _ htokens
    refine ⟨_, htokens, (hwalk _ _).mpr ⟨rfl, ?_⟩⟩
    rw [hrun] at hrecords
    exact (List.append_cancel_right hrecords).symm
  · refine (tokenize_walk "1+79228162514264337593543950335.5)").2.mpr
      ⟨[⟨['1'], 0⟩, ⟨['+'], 1⟩], ⟨"79228162514264337593543950335.5".toList, 2⟩, [⟨[')'], 33⟩],
        by decide +kernel, ?_, fun front hfront => ?_⟩
    · refine ⟨⟨false, [7, 9, 2, 2, 8, 1, 6, 2, 5, 1, 4, 2, 6, 4, 3, 3, 7, 5, 9, 3, 5, 4, 3, 9, 5, 0,
        3, 3, 5], [5]⟩, by simp, by decide +kernel, ?_⟩
      exact Numeral.outOfRange_iff.mpr (Or.inr ⟨by decide +kernel, 5, rfl, by decide⟩)
    · have hclosing : ∀ lexeme ∈ [⟨['1'], 0⟩, ⟨['+'], 1⟩], ¬ (lexeme : Lexeme).text = [')'] := by
        simp
      rw [List.countP_eq_zero.mpr fun lexeme hmem => by simpa using hclosing _ (hfront.subset hmem)]
      exact Nat.zero_le _

end RuleLang
