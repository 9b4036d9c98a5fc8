import RuleLang.Operator
import RuleLang.Text.Bytes
import RuleLang.Text.Digit

/-!
# Lexemes

The pieces of an expression that may be tokens, found from left to right (`lexemes`). At each place
five forms are tried in turn: a number, a quoted text, a truth value, the symbol of an operator, a
bracketed group. The first form that has a piece there takes as much as it can, and the search goes
on behind it. A character where no form has a piece belongs to no lexeme.

The forms are coarse. A number may end in its point, and a bracketed group may hold anything but
brackets: whether a lexeme is a literal is decided afterwards.
-/

namespace RuleLang

/-- A piece of an expression. -/
structure Lexeme where
  text : List Char
  /-- The number of bytes of the expression in front of it. -/
  offset : Nat
deriving DecidableEq, Repr

namespace Lexeme

/-- Digits in front of a text, and a point and more digits if there are any. -/
def unsigned (cs : List Char) : List Char :=
  let whole := cs.takeWhile Digit.isDigit
  if whole = [] then []
  else
    match cs.dropWhile Digit.isDigit with
    | '.' :: cs => whole ++ '.' :: cs.takeWhile Digit.isDigit
    | _ => whole

/-- A number in front of a text, with the minus sign before it. -/
def number : List Char → List Char
  | '-' :: cs => if unsigned cs = [] then [] else '-' :: unsigned cs
  | cs => unsigned cs

/-- A piece between two marks in front of a text, of characters that may stand inside it. -/
def enclosed (opening closing : Char) (inside : Char → Bool) : List Char → List Char
  | [] => []
  | c :: cs =>
    if c = opening ∧ (cs.dropWhile inside).head? = some closing then
      opening :: (cs.takeWhile inside ++ [closing])
    else []

/-- A quoted text in front of a text. It ends at the next quote, and has no escapes. -/
def quotation (cs : List Char) : List Char :=
  enclosed '"' '"' (· ≠ '"') cs

/-- A truth value in front of a text, in either spelling. -/
def truth (cs : List Char) : List Char :=
  (["True", "False", "true", "false"].map String.toList).find? (·.isPrefixOf cs) |>.getD []

/-- The longest symbol of an operator in front of a text. -/
def symbol (cs : List Char) : List Char :=
  -- Two characters first: the symbol of one operator may start the symbol of another.
  if (Operator.ofSymbol? (String.ofList (cs.take 2))).isSome then cs.take 2
  else if (Operator.ofSymbol? (String.ofList (cs.take 1))).isSome then cs.take 1
  else []

/-- A bracketed group without brackets inside in front of a text. -/
def group (cs : List Char) : List Char :=
  enclosed '[' ']' (fun c => c ≠ '[' && c ≠ ']') cs

/-- The piece of the first form that has one in front of a text, and the empty text if none has. -/
def first (cs : List Char) : List Char :=
  -- A number is tried before a symbol, so a minus sign with digits behind it is never a piece.
  [number, quotation, truth, symbol, group].map (· cs) |>.find? (· ≠ []) |>.getD []

/-! ### Pieces stand in front -/

theorem unsigned_isPrefix (cs : List Char) : unsigned cs <+: cs := by
  unfold unsigned
  by_cases hwhole : cs.takeWhile Digit.isDigit = []
  · rw [if_pos hwhole]
    exact List.nil_prefix
  · rw [if_neg hwhole]
    split
    · rename_i afterPoint hpoint
      refine ⟨afterPoint.dropWhile Digit.isDigit, ?_⟩
      calc (cs.takeWhile Digit.isDigit ++ '.' :: afterPoint.takeWhile Digit.isDigit)
            ++ afterPoint.dropWhile Digit.isDigit
          = cs.takeWhile Digit.isDigit ++ '.' :: afterPoint := by
            rw [List.append_assoc, List.cons_append, List.takeWhile_append_dropWhile]
        _ = cs := by rw [← hpoint, List.takeWhile_append_dropWhile]
    · exact List.takeWhile_prefix _

theorem number_isPrefix (cs : List Char) : number cs <+: cs := by
  unfold number
  split
  · rename_i unsignedPart
    split
    · exact List.nil_prefix
    · exact (List.prefix_cons_inj '-').mpr (unsigned_isPrefix unsignedPart)
  · exact unsigned_isPrefix cs

theorem enclosed_isPrefix (opening closing : Char) (inside : Char → Bool) (cs : List Char) :
    enclosed opening closing inside cs <+: cs := by
  cases cs with
  | nil => exact List.nil_prefix
  | cons c cs =>
    rw [enclosed]
    split
    · rename_i hmarks
      obtain ⟨rfl, hclosing⟩ := hmarks
      obtain ⟨after, hafter⟩ := List.head?_eq_some_iff.mp hclosing
      refine (List.prefix_cons_inj c).mpr ⟨after, ?_⟩
      rw [List.append_assoc, List.singleton_append, ← hafter, List.takeWhile_append_dropWhile]
    · exact List.nil_prefix

theorem truth_isPrefix (cs : List Char) : truth cs <+: cs := by
  unfold truth
  cases hword : (["True", "False", "true", "false"].map String.toList).find? (·.isPrefixOf cs) with
  | none => exact List.nil_prefix
  | some word =>
    have hfront : word.isPrefixOf cs :=
      List.find?_some (p := fun w : List Char => w.isPrefixOf cs) hword
    exact List.isPrefixOf_iff_prefix.mp hfront

theorem symbol_isPrefix (cs : List Char) : symbol cs <+: cs := by
  unfold symbol
  split
  · exact List.take_prefix 2 cs
  · split
    · exact List.take_prefix 1 cs
    · exact List.nil_prefix

/-- A piece stands in front of the text that it is found in. -/
theorem first_isPrefix (cs : List Char) : first cs <+: cs := by
  unfold first
  cases hpiece : ([number, quotation, truth, symbol, group].map (· cs)).find? (· ≠ []) with
  | none => exact List.nil_prefix
  | some piece =>
    obtain ⟨form, hform, rfl⟩ := List.mem_map.mp (List.mem_of_find?_eq_some hpiece)
    simp only [List.mem_cons, List.not_mem_nil, or_false] at hform
    obtain rfl | rfl | rfl | rfl | rfl := hform
    · exact number_isPrefix cs
    · exact enclosed_isPrefix '"' '"' _ cs
    · exact truth_isPrefix cs
    · exact symbol_isPrefix cs
    · exact enclosed_isPrefix '[' ']' _ cs

/-! ### The search -/

/-- The lexemes of a text that stands `offset` bytes behind the start of the expression. -/
def scan (offset : Nat) (cs : List Char) : List Lexeme :=
  match cs with
  | [] => []
  | c :: rest =>
    let piece := first (c :: rest)
    if piece = [] then scan (offset + c.utf8Size) rest
    else ⟨piece, offset⟩ :: scan (offset + byteSize piece) ((c :: rest).drop piece.length)
termination_by cs.length
decreasing_by
  · simp
  · have : 0 < (first (c :: rest)).length := List.length_pos_iff.mpr ‹_›
    simp only [List.length_drop, List.length_cons]
    omega

end Lexeme

/-- The lexemes of an expression, from left to right. -/
def lexemes (expression : String) : List Lexeme :=
  Lexeme.scan 0 expression.toList

end RuleLang
