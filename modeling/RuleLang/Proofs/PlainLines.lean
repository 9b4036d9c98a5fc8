import RuleLang.Proofs.Conservation
import RuleLang.Proofs.Diagnostics
import RuleLang.Proofs.InputLines
import RuleLang.Proofs.JsonLines

/-!
# Reports as lines of text

Without JSON a check prints a text for each expression and a line feed behind it. The lines are
those texts if no text has a line feed in it (`splitOn_unlines_eq_iff`), and then the output stays
aligned with the batch (`Aligned`).

A text gets a line feed only from a literal. Numbers, truth values, moments and operators are
written on one line, and so it has to come from a string or from a string array
(`Value.IsLexical.lineFeed_mem_literal_iff`), which may hold any characters. If expressions are only
parsed, all their literals are shown. If they are evaluated, what an operator gives is a number or a
truth value, so that a literal is shown only if it is the whole expression, but for parentheses
around it. These are all the cases in which the output is not aligned (`ShowsLineFeed`,
`check_lines_aligned_iff`).

Expressions from the lines of the input have no line feeds, nor have their literals, which are
pieces of them. So there the output is always aligned (`check_input_aligned`).
-/

namespace RuleLang

/-- **What a check shows** of an expression if it is not asked for JSON. -/
inductive Shows (options : CheckOptions) (expression : String) : String → Prop where
  /-- Without evaluation, the literals of the postfix order. -/
  | parsed {tokens : List Value} {expr : Expr} (hparseOnly : options.parseOnly = true)
      (htokens : (tokenize expression).outcome = .ok tokens)
      (hexpr : (parse tokens).outcome = .ok expr) :
      Shows options expression (Value.literals " " expr.toPostfix)
  /-- With evaluation, the text of the value. -/
  | evaluated {value : Value} (hparseOnly : options.parseOnly = false)
      (hvalue : (evaluate options.engine expression).outcome = .ok value) :
      Shows options expression value.text

/-- **Output that is aligned with a batch.** Cut at its line feeds it is one line for each
expression, in order, and this line is what the check shows of the expression. The last line feed
is the end of the output. -/
def Aligned (options : CheckOptions) (expressions : List String) (output : String) : Prop :=
  ∃ texts, List.Forall₂ (Shows options) expressions texts ∧
    output.toList.splitOn '\n' = texts.map String.toList ++ [[]]

/-- Whether a value is a string or a string array that goes over more than one line. -/
def Value.SpansLines : Value → Prop
  | string text | stringArray text => '\n' ∈ text.toList
  | _ => False

instance : DecidablePred Value.SpansLines
  | .string text | .stringArray text => inferInstanceAs (Decidable ('\n' ∈ text.toList))
  | .unknown _ | .number _ | .boolean _ | .datetime _ _ | .operator _ =>
    inferInstanceAs (Decidable False)

/-- **An expression of which a check shows a line feed.** It has a literal that spans lines, and, if
it is evaluated, no operator to apply to that. -/
def ShowsLineFeed (options : CheckOptions) (expression : String) : Prop :=
  ∃ tokens, (tokenize expression).outcome = .ok tokens ∧
    (∃ token ∈ tokens, token.SpansLines) ∧
    (options.parseOnly = false → ∀ token ∈ tokens, token.isApplied = false)

variable {options : CheckOptions} {expression text : String} {expressions texts : List String}
  {tokens values : List Value} {token value : Value}

/-! ### Lines between line feeds -/

/-- **Lines are cut as they were written** if there is no line feed in them, and not otherwise. -/
theorem splitOn_unlines_eq_iff :
    (unlines texts).toList.splitOn '\n' = texts.map String.toList ++ [[]] ↔
      ∀ text ∈ texts, '\n' ∉ text.toList := by
  induction texts with
  | nil => exact iff_of_true rfl fun _ hmem => absurd hmem List.not_mem_nil
  | cons text texts ih =>
    have hfirst : (unlines (text :: texts)).toList
        = text.toList ++ '\n' :: (unlines texts).toList := by
      simp [unlines, String.toList_append]
    rw [hfirst, List.map_cons, List.cons_append, List.forall_mem_cons]
    by_cases hfeed : '\n' ∈ text.toList
    · -- what stands in front of the first line feed is shorter than the text
      refine iff_of_false (fun heq => ?_) (fun h => h.1 hfeed)
      obtain ⟨front, behind, hparts, hfront⟩ := List.eq_append_cons_of_mem hfeed
      rw [hparts, List.append_assoc, List.cons_append,
        List.splitOn_append_cons_self_of_not_mem hfront] at heq
      have hlength := congrArg List.length (List.cons.inj heq).1
      simp at hlength
    · rw [List.splitOn_append_cons_self_of_not_mem hfeed, List.cons_inj_right, ih]
      exact (and_iff_right hfeed).symm

/-- The lines of a text have no line feeds. -/
theorem not_mem_of_mem_lines {cs line : List Char} (h : line ∈ lines cs) : '\n' ∉ line := by
  have hfirst (cs : List Char) : '\n' ∉ cs.takeWhile (· ≠ '\n') := fun hmem => by
    simpa using List.mem_takeWhile_imp hmem
  fun_induction lines cs with
  | case1 => exact absurd h List.not_mem_nil
  | case2 cs =>
    rw [List.mem_singleton.mp h]
    exact hfirst cs
  | case3 cs hne first c rest hdrop ih =>
    rcases List.mem_cons.mp h with rfl | h
    · -- a line is what stands in front of a line feed, but for a carriage return
      exact fun hfeed => hfirst cs ((dropReturn_sublist first).subset hfeed)
    · exact ih h

/-! ### Literals that span lines -/

namespace Value

/-- The literal of a value that spans lines has a line feed. -/
theorem SpansLines.mem_literal (h : value.SpansLines) : '\n' ∈ value.literal.toList := by
  cases value with
  | string text =>
    rw [literal, toList_quoted]
    exact List.mem_append_left _ (List.mem_cons_of_mem _ h)
  | stringArray text => exact h
  | _ => exact absurd h id

theorem SpansLines.isOperand (h : value.SpansLines) : value.IsOperand := by
  cases value with
  | string text => exact ⟨by simp [kind], by simp [kind]⟩
  | stringArray text => exact ⟨by simp [kind], by simp [kind]⟩
  | _ => exact absurd h id

/-- Numbers and truth values are written on one line. -/
theorem not_spansLines_of_kind (h : value.kind = .number ∨ value.kind = .boolean) :
    ¬ value.SpansLines := by
  cases value with
  | string text => rcases h with h | h <;> cases h
  | stringArray text => rcases h with h | h <;> cases h
  | _ => exact id

/-- **Line feeds in literals** are those of strings and string arrays. -/
theorem IsLexical.lineFeed_mem_literal_iff (h : token.IsLexical) :
    '\n' ∈ token.literal.toList ↔ token.SpansLines := by
  refine ⟨fun hfeed => ?_, SpansLines.mem_literal⟩
  cases token with
  | unknown text => exact absurd h id
  | number d =>
    obtain ⟨n, -, hdigits, -⟩ := d.exists_numeral
    have htext : (number d).literal.toList = n.chars := String.toList_ofList.trans hdigits
    rw [htext] at hfeed
    exact absurd (Numeral.isDigit_or_mem_of_mem_chars hfeed) (by decide)
  | boolean b => cases b <;> exact absurd hfeed (by decide)
  | operator op => cases op <;> exact absurd hfeed (by decide)
  | datetime text moment =>
    rw [literal, toList_quoted] at hfeed
    have hmem : '\n' ∈ text.toList := by simpa using hfeed
    exact absurd (h.isDigit_or_mem _ hmem) (by decide)
  | string text =>
    rw [literal, toList_quoted] at hfeed
    simpa [SpansLines] using hfeed
  | stringArray text => exact hfeed

/-- The quotes of a literal are no line feeds. -/
theorem lineFeed_mem_text_iff : '\n' ∈ value.text.toList ↔ '\n' ∈ value.literal.toList := by
  cases value with
  | string text => simp [literal, toList_quoted, Value.text]
  | datetime text moment => simp [literal, toList_quoted, Value.text]
  | _ => exact Iff.rfl

/-- Literals with spaces between them have a line feed if one of them has. -/
theorem lineFeed_mem_literals_iff :
    '\n' ∈ (literals " " values).toList ↔ ∃ value ∈ values, '\n' ∈ value.literal.toList := by
  induction values with
  | nil => simp [literals]
  | cons value values ih =>
    cases values with
    | nil => simp [literals]
    | cons next values =>
      -- what stands between two literals is a space
      rw [toList_literals_cons_cons, List.mem_append, List.mem_cons, ih, List.exists_mem_cons_iff]
      simp

end Value

theorem isSuffix_of_splitSign (previous : Option Value) (piece : List Char) :
    (splitSign previous piece).2 <:+ piece := by
  unfold splitSign
  split
  · split
    · exact List.suffix_cons '-' _
    · exact List.suffix_rfl
  · exact List.suffix_rfl

/-- A string or a string array is a token as it is written in the expression. -/
theorem lineFeed_mem_of_spansLines (htokens : (tokenize expression).outcome = .ok tokens)
    (hmem : token ∈ tokens) (h : token.SpansLines) : '\n' ∈ expression.toList := by
  obtain ⟨-, hread, -⟩ := tokenize_eq_ok_iff.mp htokens
  refine forall_mem_of_readPieces?
    (motive := fun token => token.SpansLines → '\n' ∈ expression.toList)
    (fun piece hpiece previous first hfirst => ?_) hread token hmem h
  obtain ⟨lexeme, hlexeme, rfl⟩ := List.mem_map.mp hpiece
  obtain ⟨before, behind, hparts, htext, -⟩ := Lexeme.exists_of_mem_scan hlexeme
  refine forall_mem_of_readPiece? (fun hspans => absurd hspans id)
    (fun token hclassify _ hspans => ?_) hfirst
  -- only numbers and truth values can be written in other ways than as their literals
  have hliteral : token.literal = String.ofList (splitSign previous lexeme.text).2 := by
    refine Value.ClassifiedAs.literal_eq (hclassify ▸ Value.classifiedAs_classify _) ?_ ?_
    · exact fun hkind => Value.not_spansLines_of_kind (Or.inr hkind) hspans
    · exact fun hkind => Value.not_spansLines_of_kind (Or.inl hkind) hspans
  have hfeed := hspans.mem_literal
  rw [hliteral, String.toList_ofList] at hfeed
  rw [hparts]
  exact List.mem_append_right before
    (htext.subset ((isSuffix_of_splitSign previous lexeme.text).subset hfeed))

/-! ### What a check shows -/

theorem shows_of_report {found : Report} (h : (report options expression).outcome = .ok found) :
    Shows options expression (found.print false) := by
  rcases report_eq_ok_iff.mp h with ⟨hparseOnly, tokens, expr, htokens, hexpr, rfl⟩ |
    ⟨hparseOnly, value, hvalue, rfl⟩
  · exact .parsed hparseOnly htokens hexpr
  · exact .evaluated hparseOnly hvalue

/-- A check shows one text of an expression. -/
theorem rightUnique_shows (options : CheckOptions) : Relator.RightUnique (Shows options) := by
  intro expression text text' h h'
  -- the options say which of the two it is, so that two texts come from the same run
  cases h with
  | parsed hparseOnly htokens hexpr =>
    cases h' with
    | parsed _ htokens' hexpr' =>
      rw [htokens] at htokens'
      cases htokens'
      rw [hexpr] at hexpr'
      cases hexpr'
      rfl
    | evaluated hevaluates _ =>
      rw [hparseOnly] at hevaluates
      cases hevaluates
  | evaluated hparseOnly hvalue =>
    cases h' with
    | parsed hparses _ _ =>
      rw [hparseOnly] at hparses
      cases hparses
    | evaluated _ hvalue' =>
      rw [hvalue] at hvalue'
      cases hvalue'
      rfl

/-- Whether a line feed is shown is decided by the tokens, of which there is one list. -/
theorem showsLineFeed_iff (htokens : (tokenize expression).outcome = .ok tokens) :
    ShowsLineFeed options expression ↔ (∃ token ∈ tokens, token.SpansLines) ∧
      (options.parseOnly = false → ∀ token ∈ tokens, token.isApplied = false) := by
  constructor
  · rintro ⟨tokens', htokens', h⟩
    rw [htokens] at htokens'
    cases htokens'
    exact h
  · exact fun h => ⟨tokens, htokens, h⟩

instance (options : CheckOptions) (expression : String) :
    Decidable (ShowsLineFeed options expression) :=
  match htokens : (tokenize expression).outcome with
  | .ok _ => decidable_of_iff _ (showsLineFeed_iff htokens).symm
  | .error _ => isFalse fun ⟨_, htokens', _⟩ => by simp [htokens] at htokens'

/-- No operator is among the tokens just if their tree is a leaf. -/
theorem forall_not_isApplied_iff {expr : Expr} (h : (parse tokens).outcome = .ok expr) :
    (∀ token ∈ tokens, token.isApplied = false) ↔ ∃ leaf, expr = .literal leaf := by
  -- the operators of the tree are those among the tokens, so there are as many
  have hcount : (∀ token ∈ tokens, token.isApplied = false) ↔ expr.operatorCount = 0 := by
    rw [(leaves_of_parse h).2, List.countP_eq_zero]
    simp only [Bool.not_eq_true]
  rw [hcount]
  cases expr with
  | literal leaf => exact iff_of_true rfl ⟨leaf, rfl⟩
  | binary op left right =>
    refine iff_of_false (fun hzero => ?_) fun ⟨leaf, hleaf⟩ => by cases hleaf
    rw [Expr.operatorCount] at hzero
    omega

/-- A value spans lines just if it is a literal that does, and the whole expression. -/
theorem spansLines_iff_of_evaluate {engine : Engine}
    (htokens : (tokenize expression).outcome = .ok tokens)
    (hvalue : (evaluate engine expression).outcome = .ok value) :
    value.SpansLines ↔
      (∃ token ∈ tokens, token.SpansLines) ∧ ∀ token ∈ tokens, token.isApplied = false := by
  obtain ⟨tokens', expr, htokens', hparse, hhas⟩ := exists_parse_of_evaluate hvalue
  rw [htokens] at htokens'
  cases htokens'
  rw [forall_not_isApplied_iff hparse]
  have hleaves := (leaves_of_parse hparse).1
  constructor
  · intro hspans
    -- what an operator gives does not span lines
    rcases hhas.eq_literal_or_resultKind with rfl | ⟨op, hkind⟩
    · have hmem : value ∈ tokens.filter (·.IsOperand) := hleaves ▸ List.mem_singleton_self value
      exact ⟨⟨value, (List.mem_filter.mp hmem).1, hspans⟩, value, rfl⟩
    · exact absurd hspans (Value.not_spansLines_of_kind (hkind ▸ op.resultKind_eq))
  · rintro ⟨⟨token, hmem, hspans⟩, leaf, rfl⟩
    -- the only operand is the leaf, and the value is the leaf
    have htoken : token ∈ tokens.filter (·.IsOperand) :=
      List.mem_filter.mpr ⟨hmem, decide_eq_true hspans.isOperand⟩
    rw [← hleaves] at htoken
    obtain rfl : token = leaf := List.mem_singleton.mp htoken
    cases hhas
    exact hspans

/-- **What is shown has a line feed** just if the expression is one of those. -/
theorem Shows.lineFeed_mem_iff (h : Shows options expression text) :
    '\n' ∈ text.toList ↔ ShowsLineFeed options expression := by
  cases h with
  | @parsed tokens expr hparseOnly htokens hexpr =>
    have hlexical := (writable_of_tokenize htokens).lexical
    have hsubset := (lexed_of_tokenize htokens).toPostfix_subset hexpr
    have hnever : options.parseOnly ≠ false := by simp [hparseOnly]
    rw [showsLineFeed_iff htokens, Value.lineFeed_mem_literals_iff]
    constructor
    · rintro ⟨value, hvalue, hfeed⟩
      have hspans := (hlexical value (hsubset hvalue)).lineFeed_mem_literal_iff.mp hfeed
      exact ⟨⟨value, hsubset hvalue, hspans⟩, fun hevaluates => absurd hevaluates hnever⟩
    · rintro ⟨⟨token, hmem, hspans⟩, -⟩
      exact ⟨token, mem_toPostfix_of_parse hexpr hmem hspans.isOperand, hspans.mem_literal⟩
  | @evaluated value hparseOnly hvalue =>
    obtain ⟨tokens, -, htokens, -⟩ := exists_parse_of_evaluate hvalue
    have hlexical : value.IsLexical := (printable_of_evaluate hvalue).2
    rw [showsLineFeed_iff htokens, Value.lineFeed_mem_text_iff, hlexical.lineFeed_mem_literal_iff,
      spansLines_iff_of_evaluate htokens hvalue]
    simp [hparseOnly]

/-! ### The output -/

/-- The texts of a batch, each with a line feed behind it, are aligned with it just if none has a
line feed in it. -/
theorem aligned_unlines_iff (h : List.Forall₂ (Shows options) expressions texts) :
    Aligned options expressions (unlines texts) ↔
      ∀ expression ∈ expressions, ¬ ShowsLineFeed options expression := by
  have hfeeds : (∀ expression ∈ expressions, ¬ ShowsLineFeed options expression) ↔
      ∀ text ∈ texts, '\n' ∉ text.toList := by
    induction h with
    | nil => simp
    | cons hfirst _ ih =>
      rw [List.forall_mem_cons, List.forall_mem_cons, ih, hfirst.lineFeed_mem_iff]
  rw [hfeeds, ← splitOn_unlines_eq_iff]
  constructor
  · rintro ⟨texts', htexts', hlines⟩
    -- there are no other texts that the lines could be
    obtain rfl : texts' = texts :=
      List.right_unique_forall₂' (rightUnique_shows options) htexts' h
    exact hlines
  · exact fun hlines => ⟨texts, h, hlines⟩

/-- A check that ends with 0 prints what it shows of each expression. -/
theorem exists_shows_of_code_eq_zero {arguments : List String} {input : ByteArray}
    (hasks : AsksToCheck arguments input options false expressions)
    (hcode : (outcome arguments input).code = 0) :
    ∃ texts, List.Forall₂ (Shows options) expressions texts ∧
      (outcome arguments input).stdout = unlines texts := by
  obtain ⟨found, hfound, hstdout⟩ := exists_reports_of_code_eq_zero hasks hcode
  refine ⟨found.map (Report.print false), ?_, hstdout⟩
  rw [List.forall₂_map_right_iff]
  exact hfound.imp fun _ _ => shows_of_report

/-- **The output is aligned with the batch** if no expression is one of which a line feed is shown,
and it is not aligned if there is such an expression. -/
theorem check_lines_aligned_iff {arguments : List String} {input : ByteArray}
    (hasks : AsksToCheck arguments input options false expressions)
    (hcode : (outcome arguments input).code = 0) :
    Aligned options expressions (outcome arguments input).stdout ↔
      ∀ expression ∈ expressions, ¬ ShowsLineFeed options expression := by
  obtain ⟨texts, htexts, hstdout⟩ := exists_shows_of_code_eq_zero hasks hcode
  rw [hstdout]
  exact aligned_unlines_iff htexts

/-- Two strings with a line feed are compared, and the value has none. If the comparison is only
parsed, the strings are shown. -/
theorem check_lines_aligned_iff_comparison :
    Aligned {} ["\"a\nb\" == \"a\nb\"", "1"]
        (outcome (checkArguments {} false ["\"a\nb\" == \"a\nb\"", "1"]) .empty).stdout ∧
      ¬ Aligned { parseOnly := true } ["\"a\nb\" == \"a\nb\"", "1"]
        (outcome (checkArguments { parseOnly := true } false ["\"a\nb\" == \"a\nb\"", "1"])
          .empty).stdout := by
  constructor
  · refine (check_lines_aligned_iff (asksToCheck_checkArguments {} false .empty
      (List.cons_ne_nil _ _)) (by decide +kernel)).mpr ?_
    decide +kernel
  · rw [check_lines_aligned_iff (asksToCheck_checkArguments { parseOnly := true } false .empty
      (List.cons_ne_nil _ _)) (by decide +kernel)]
    decide +kernel

/-- A string with a line feed is shown on two lines. -/
theorem check_shows_string_on_two_lines :
    AsksToCheck ["check", "--", "\"a\nb\""] .empty {} false ["\"a\nb\""] ∧
      (outcome ["check", "--", "\"a\nb\""] .empty).code = 0 ∧
      (outcome ["check", "--", "\"a\nb\""] .empty).stdout = "a\nb\n" ∧
      ¬ Aligned {} ["\"a\nb\""] (outcome ["check", "--", "\"a\nb\""] .empty).stdout := by
  have hstdout : (outcome ["check", "--", "\"a\nb\""] .empty).stdout = "a\nb\n" := by
    decide +kernel
  refine ⟨asksToCheck_checkArguments {} false .empty (List.cons_ne_nil _ _), by decide +kernel,
    hstdout, ?_⟩
  rw [hstdout]
  rintro ⟨texts, htexts, hlines⟩
  -- there are three pieces, and there would be two for one expression
  have hlength := congrArg List.length hlines
  rw [List.length_append, List.length_map, ← htexts.length_eq] at hlength
  revert hlength
  decide

/-! ### Expressions from the input -/

theorem not_mem_of_expressionsOf {input : ByteArray} (h : expressionsOf input = .ok expressions) :
    ∀ expression ∈ expressions, '\n' ∉ expression.toList := by
  intro expression hmem
  unfold expressionsOf at h
  split at h
  · cases h
  · cases h
    obtain ⟨line, hline, rfl⟩ := List.mem_map.mp hmem
    rw [String.toList_ofList]
    exact not_mem_of_mem_lines (List.mem_filter.mp hline).1

/-- **The output for the lines of the input is aligned** with the expressions on them. -/
theorem check_input_aligned {arguments : List String} {input : ByteArray} {verbosity : Nat}
    (harguments : Invocation.ofArguments? 0 arguments =
      some { verbosity, request := .check [] options false })
    (hinput : expressionsOf input = .ok expressions)
    (hcode : (outcome arguments input).code = 0) :
    Aligned options expressions (outcome arguments input).stdout := by
  obtain ⟨texts, htexts, hstdout⟩ := exists_shows_of_code_eq_zero
    ⟨verbosity, [], harguments, (if_pos rfl).trans hinput⟩ hcode
  rw [hstdout, aligned_unlines_iff htexts]
  -- a literal that spans lines is a part of its expression, and this is a part of one line
  rintro expression hmem ⟨tokens, htokens, ⟨token, htoken, hspans⟩, -⟩
  exact not_mem_of_expressionsOf hinput expression hmem
    (lineFeed_mem_of_spansLines htokens htoken hspans)

end RuleLang
