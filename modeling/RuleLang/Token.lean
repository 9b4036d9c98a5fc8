import RuleLang.Error
import RuleLang.Lexeme
import RuleLang.Log
import RuleLang.Text.Blank
import RuleLang.Value.Classify

/-!
# Tokens

The values that an expression is written with (`tokenize`). Each lexeme is classified on its own,
with two things carried along: the token before it, and the number of open parentheses.

The token before decides how a minus sign in front of a number is read. At the start of the
expression and after an operator it is a sign, after an operand or a closing parenthesis it is a
subtraction, and then it is kept even where the rest of the lexeme is discarded.

A lexeme that is no literal is discarded with a warning, unless it is a numeral out of range: then
the expression has no tokens. Nor has it if its parentheses do not match.
-/

namespace RuleLang

/-- Whether a minus sign after the given token is the sign of a number. -/
def acceptsSign : Option Value → Bool
  | none => true
  | some (.operator op) => op ≠ .rightParen
  | some _ => false

/-- The tokens before a lexeme and the text of its literal: where a minus sign is a subtraction it
is a token of its own. -/
def splitSign (previous : Option Value) (text : List Char) : List Value × List Char :=
  match text with
  | '-' :: unsigned =>
    if unsigned ≠ [] ∧ !acceptsSign previous then ([.operator .subtract], unsigned) else ([], text)
  | _ => ([], text)

/-- The number of open parentheses after a token, `none` if it closes one that is not open. -/
def depthAfter? (depth : Nat) : Value → Option Nat
  | .operator .leftParen => some (depth + 1)
  | .operator .rightParen => if depth = 0 then none else some (depth - 1)
  | _ => some depth

/-- The tokens of lexemes that come after the token `previous`, with `depth` parentheses open. -/
def tokensFrom (previous : Option Value) (depth : Nat) : List Lexeme → Logged Error (List Value)
  | [] => if depth = 0 then pure [] else .fail (.mismatched (.unclosed depth))
  | lexeme :: lexemes => do
    let (sign, literal) := splitSign previous lexeme.text
    let token := Value.classify (String.ofList literal)
    if token.kind = .unknown then
      if (Numeral.read? literal).isSome then
        .fail (.malformed (.numberOutOfRange token.text lexeme.offset))
      else
        .note (.discarded token.text lexeme.offset)
        -- What is discarded is the literal: its subtraction stays, and comes before what follows.
        let tokens ← tokensFrom (sign.getLast?.or previous) depth lexemes
        return sign ++ tokens
    else
      match depthAfter? depth token with
      | none => .fail (.mismatched (.unopenedAt lexeme.offset))
      | some depth =>
        let tokens ← tokensFrom (some token) depth lexemes
        return sign ++ token :: tokens

/-- The tokens of an expression. -/
def tokenize (expression : String) : Logged Error (List Value) := do
  if allBlank expression.toList then .fail .emptyExpression
  else
    let tokens ← tokensFrom none 0 (lexemes expression)
    .note (.tokenized expression tokens)
    return tokens

end RuleLang
