import Mathlib.Data.List.TakeWhile
import RuleLang.Proofs.Batch

/-!
# Batches from the input

A batch may be given behind two dashes, or on the lines of the input. The program leaves the same
behind either way (`outcome_of_onLines`), whatever options stand in front.

There are two things to show. The arguments ask for the same check with and without operands
(`Invocation.ofArguments?_append`): options are read one by one up to the two dashes, and what comes
behind these is kept as it is. And the lines of the input that are not blank are the expressions
that were put there (`expressionsOf_of_onLines`). That takes an expression that is a line of its own
(`FitsLine`): a line feed would split it, a carriage return at its end would be lost with the end of
the line, and a blank one would be passed over. Blanks at its ends are kept.

The input is taken apart from the front. A line feed ends the first line, and the lines of the rest
do not depend on it (`lines_append`), so the two ways in which a line may end and the blank lines in
between each cost one step of the induction.
-/

namespace RuleLang

/-! ### Lines -/

variable {line rest : List Char}

theorem lines_nil : lines [] = [] := by
  rw [lines, if_pos rfl]

/-- A text without a line feed is a single line. -/
theorem lines_of_not_mem (hne : line ≠ []) (h : '\n' ∉ line) : lines line = [line] := by
  have hinside : ∀ c ∈ line, decide (c ≠ '\n') = true := by
    intro c hc
    exact decide_eq_true fun hfeed => h (hfeed ▸ hc)
  have htake : line.takeWhile (· ≠ '\n') = line := List.takeWhile_eq_self_iff.mpr hinside
  have hdrop : line.dropWhile (· ≠ '\n') = [] := List.dropWhile_eq_nil_iff.mpr hinside
  rw [lines, if_neg hne]
  dsimp only
  rw [htake]
  split
  · rfl
  · rename_i hcons
    rw [hdrop] at hcons
    cases hcons

/-- The first line ends at the first line feed, and the others are those of the rest. -/
theorem lines_append (h : '\n' ∉ line) (rest : List Char) :
    lines (line ++ '\n' :: rest) = dropReturn line :: lines rest := by
  have hinside : ∀ c ∈ line, decide (c ≠ '\n') = true := by
    intro c hc
    exact decide_eq_true fun hfeed => h (hfeed ▸ hc)
  have htake : (line ++ '\n' :: rest).takeWhile (· ≠ '\n') = line := by
    rw [List.takeWhile_append_of_pos hinside, List.takeWhile_cons_of_neg (by simp),
      List.append_nil]
  have hdrop : (line ++ '\n' :: rest).dropWhile (· ≠ '\n') = '\n' :: rest := by
    rw [List.dropWhile_append_of_pos hinside, List.dropWhile_cons_of_neg (by simp)]
  rw [lines, if_neg (by simp)]
  dsimp only
  rw [htake]
  split
  · rename_i hnil
    rw [hdrop] at hnil
    cases hnil
  · rename_i hcons
    rw [hdrop] at hcons
    obtain ⟨-, rfl⟩ := List.cons.inj hcons
    rfl

theorem dropReturn_concat (line : List Char) : dropReturn (line ++ ['\r']) = line := by
  rw [dropReturn, if_pos List.getLast?_concat, List.dropLast_concat]

/-- What may end a line: a line feed, with or without a carriage return in front. -/
def IsLineEnd (ending : List Char) : Prop :=
  ending = ['\n'] ∨ ending = ['\r', '\n']

/-- A line with its end in front of a text. What is left of the line is without a carriage return
at its end, or the line itself. -/
theorem lines_lineEnd {ending : List Char} (hending : IsLineEnd ending) (h : '\n' ∉ line)
    (rest : List Char) :
    lines (line ++ (ending ++ rest)) = dropReturn line :: lines rest ∨
      lines (line ++ (ending ++ rest)) = line :: lines rest := by
  rcases hending with rfl | rfl
  · exact Or.inl (lines_append h rest)
  · right
    -- the carriage return belongs to the line until the line ends
    have hreturn : '\n' ∉ line ++ ['\r'] := by simpa using h
    have happend := lines_append hreturn rest
    rw [dropReturn_concat, List.append_assoc] at happend
    exact happend

/-! ### Expressions on lines -/

/-- An expression that can be a line of its own. -/
structure FitsLine (expression : String) : Prop where
  notBlank : allBlank expression.toList = false
  noLineFeed : '\n' ∉ expression.toList
  noReturn : expression.toList.getLast? ≠ some '\r'

instance : DecidablePred FitsLine := fun expression =>
  decidable_of_iff (allBlank expression.toList = false ∧ '\n' ∉ expression.toList ∧
      expression.toList.getLast? ≠ some '\r')
    ⟨fun ⟨hblank, hfeed, hreturn⟩ => ⟨hblank, hfeed, hreturn⟩,
      fun h => ⟨h.notBlank, h.noLineFeed, h.noReturn⟩⟩

/-- **A text with expressions on its lines**, one to a line and in this order, and any number of
blank lines before, between and behind them. The last line need not end. -/
inductive OnLines : List String → List Char → Prop where
  | lastBlank {blank : List Char} (hblank : allBlank blank = true) (hfeed : '\n' ∉ blank) :
      OnLines [] blank
  | lastLine {expression : String} : OnLines [expression] expression.toList
  | blank {expressions : List String} {blank ending rest : List Char}
      (hblank : allBlank blank = true) (hfeed : '\n' ∉ blank) (hending : IsLineEnd ending)
      (hrest : OnLines expressions rest) : OnLines expressions (blank ++ (ending ++ rest))
  | line {expression : String} {expressions : List String} {ending rest : List Char}
      (hending : IsLineEnd ending) (hrest : OnLines expressions rest) :
      OnLines (expression :: expressions) (expression.toList ++ (ending ++ rest))

/-- Nothing is put into a line by dropping its carriage return. -/
theorem dropReturn_sublist (line : List Char) : (dropReturn line).Sublist line := by
  unfold dropReturn
  split
  · exact List.dropLast_sublist line
  · exact List.Sublist.refl line

theorem allBlank_dropReturn {blank : List Char} (h : allBlank blank = true) :
    allBlank (dropReturn blank) = true :=
  List.all_eq_true.mpr fun c hc =>
    List.all_eq_true.mp h c ((dropReturn_sublist blank).subset hc)

theorem FitsLine.dropReturn {expression : String} (h : FitsLine expression) :
    dropReturn expression.toList = expression.toList :=
  if_neg h.noReturn

/-- The lines that are not blank are the expressions. -/
theorem filter_lines_of_onLines {expressions : List String} {text : List Char}
    (h : OnLines expressions text) (hfits : ∀ expression ∈ expressions, FitsLine expression) :
    (lines text).filter (!allBlank ·) = expressions.map String.toList := by
  induction h with
  | @lastBlank blank hblank hfeed =>
    by_cases hne : blank = []
    · rw [hne, lines_nil]
      rfl
    · rw [lines_of_not_mem hne hfeed, List.filter_cons_of_neg (by simp [hblank])]
      rfl
  | @lastLine expression =>
    have hfit := hfits expression List.mem_cons_self
    have hne : expression.toList ≠ [] := by
      intro hnil
      have hblank := hfit.notBlank
      rw [hnil] at hblank
      cases hblank
    rw [lines_of_not_mem hne hfit.noLineFeed, List.filter_cons_of_pos (by simp [hfit.notBlank])]
    rfl
  | @blank expressions blank ending rest hblank hfeed hending _ ih =>
    -- the line is passed over, with or without a carriage return at its end
    rcases lines_lineEnd hending hfeed rest with hlines | hlines
    · rw [hlines, List.filter_cons_of_neg (by simp [allBlank_dropReturn hblank])]
      exact ih hfits
    · rw [hlines, List.filter_cons_of_neg (by simp [hblank])]
      exact ih hfits
  | @line expression expressions ending rest hending _ ih =>
    obtain ⟨hfit, hfits⟩ := List.forall_mem_cons.mp hfits
    have hlines : lines (expression.toList ++ (ending ++ rest))
        = expression.toList :: lines rest := by
      rcases lines_lineEnd hending hfit.noLineFeed rest with hlines | hlines
      · -- either way the line is the expression
        rw [hlines, hfit.dropReturn]
      · exact hlines
    rw [hlines, List.filter_cons_of_pos (by simp [hfit.notBlank]), ih hfits, List.map_cons]

/-- The text that the bytes of a text are decoded to. -/
theorem fromUTF8?_toUTF8 (text : String) : String.fromUTF8? text.toUTF8 = some text := by
  rw [String.fromUTF8?, String.toUTF8_eq_toByteArray, dif_pos text.isValidUTF8]
  rfl

/-- **The expressions of the input** are those on its lines. -/
theorem expressionsOf_of_onLines {expressions : List String} {text : List Char}
    (h : OnLines expressions text) (hfits : ∀ expression ∈ expressions, FitsLine expression) :
    expressionsOf (String.ofList text).toUTF8 = .ok expressions := by
  have hback : (expressions.map String.toList).map String.ofList = expressions := by
    rw [List.map_map]
    exact List.map_id'' (fun _ => String.ofList_toList) expressions
  rw [expressionsOf, fromUTF8?_toUTF8]
  dsimp only
  rw [String.toList_ofList, filter_lines_of_onLines h hfits, hback]

/-! ### Operands behind two dashes -/

namespace Settings

variable {command : Command} {settings settings' : Settings} {arguments : List String}

/-- What stands behind two dashes is kept as operands, after the ones already there. -/
theorem readArguments?_append (h : readArguments? command settings arguments = some settings')
    (hdashes : "--" ∉ arguments) (operands : List String) :
    readArguments? command settings (arguments ++ "--" :: operands)
      = some { settings' with operands := settings'.operands ++ operands } := by
  -- an option takes one argument or, with its value, two
  induction hlength : arguments.length using Nat.strongRecOn generalizing arguments settings with
  | ind n ih =>
    subst hlength
    cases arguments with
    | nil =>
      obtain rfl : settings = settings' := Option.some.inj h
      rfl
    | cons argument arguments =>
      obtain ⟨hargument, hdashes⟩ : "--" ≠ argument ∧ "--" ∉ arguments := by simpa using hdashes
      rw [readArguments?.eq_3 _ _ _ _ (Ne.symm hargument)] at h
      rw [List.cons_append, readArguments?.eq_3 _ _ _ _ (Ne.symm hargument)]
      obtain ⟨⟨next, needsValue⟩, hnext, h⟩ := Option.bind_eq_some_iff.mp h
      rw [hnext]
      cases needsValue with
      | false => exact ih arguments.length (Nat.lt_succ_self _) h hdashes rfl
      | true =>
        cases arguments with
        | nil => cases h
        | cons name arguments =>
          obtain ⟨-, hdashes⟩ : "--" ≠ name ∧ "--" ∉ arguments := by simpa using hdashes
          obtain ⟨chosen, hchosen, h⟩ := Option.bind_eq_some_iff.mp h
          show (next.setEngine? command name >>= _) = _
          rw [hchosen]
          have hless : arguments.length < (argument :: name :: arguments).length := by
            rw [List.length_cons, List.length_cons]
            omega
          exact ih arguments.length hless h hdashes rfl

/-- Operands turn a check of the input into a check of the operands. -/
theorem request?_append {options : CheckOptions} {json : Bool}
    (h : settings.request? command = some (.check [] options json)) (expressions : List String) :
    { settings with operands := settings.operands ++ expressions }.request? command
      = some (.check expressions options json) := by
  obtain ⟨-, -, h⟩ := Option.bind_eq_some_iff.mp h
  cases command with
  | check =>
    obtain ⟨hnone, hoptions, hjson⟩ := Request.check.inj (Option.some.inj h)
    rw [← hoptions, ← hjson, request?, hnone, List.nil_append]
    rfl
  | demo => cases h
  | docs => cases h
  | doc =>
    -- its operand is the name of a page
    generalize settings.operands = operands at h
    cases operands with
    | nil => cases h
    | cons name names => cases h

end Settings

namespace Invocation

variable {arguments : List String} {verbosity' : Nat} {options : CheckOptions} {json : Bool}

/-- **Arguments that ask for a check** of the input ask for the same check of the expressions that
are put behind them and two dashes. -/
theorem ofArguments?_append {verbosity : Nat}
    (h : ofArguments? verbosity arguments =
      some { verbosity := verbosity', request := .check [] options json })
    (hdashes : "--" ∉ arguments) (expressions : List String) :
    ofArguments? verbosity (arguments ++ "--" :: expressions)
      = some { verbosity := verbosity', request := .check expressions options json } := by
  induction arguments generalizing verbosity with
  | nil => cases h
  | cons argument arguments ih =>
    obtain ⟨-, hdashes⟩ : "--" ≠ argument ∧ "--" ∉ arguments := by simpa using hdashes
    rw [ofArguments?] at h
    rw [List.cons_append, ofArguments?]
    split at h
    · -- a word: only the one for the log is followed by a command
      split at h
      · exact ih h hdashes
      · cases h
      · cases h
    · split at h
      · exact ih h hdashes
      · cases h
      · cases h
    · obtain ⟨command, hcommand, h⟩ := Option.bind_eq_some_iff.mp h
      obtain ⟨settings, hsettings, h⟩ := Option.bind_eq_some_iff.mp h
      obtain ⟨request, hrequest, h⟩ := Option.bind_eq_some_iff.mp h
      cases h
      rw [hcommand]
      show (Settings.readArguments? command _ _ >>= _) = _
      -- a command reads all that is left, so the expressions come behind its options
      rw [Settings.readArguments?_append hsettings hdashes]
      show (Settings.request? command _ >>= _) = _
      rw [Settings.request?_append hrequest]
      rfl

end Invocation

/-! ### The program -/

/-- **A batch on the lines of the input** is checked as the same batch behind two dashes. Let some
arguments ask for a check of the input, with any options that go with it. Put behind the arguments
and two dashes, expressions that fit on lines are what the arguments then ask to have checked, with
the same options and as much of the log; and the program leaves behind what it leaves without them
if they are on the lines of its input: the same code, the same output, the same message and the
same records. -/
theorem outcome_of_onLines {arguments : List String} {verbosity : Nat} {options : CheckOptions}
    {json : Bool} {expressions : List String} {text : List Char}
    (harguments : Invocation.ofArguments? 0 arguments =
      some { verbosity, request := .check [] options json })
    (hdashes : "--" ∉ arguments) (hne : expressions ≠ [])
    (hfits : ∀ expression ∈ expressions, FitsLine expression) (htext : OnLines expressions text)
    (input : ByteArray) :
    Invocation.ofArguments? 0 (arguments ++ "--" :: expressions) =
        some { verbosity, request := .check expressions options json } ∧
      outcome (arguments ++ "--" :: expressions) input =
        outcome arguments (String.ofList text).toUTF8 := by
  have hoperands := Invocation.ofArguments?_append harguments hdashes expressions
  have hfromOperands : AsksToCheckAt verbosity (arguments ++ "--" :: expressions) input options json
      expressions := ⟨expressions, hoperands, if_neg hne⟩
  have hfromLines :
      AsksToCheckAt verbosity arguments (String.ofList text).toUTF8 options json expressions :=
    ⟨[], harguments, (if_pos rfl).trans (expressionsOf_of_onLines htext hfits)⟩
  refine ⟨hoperands, ?_⟩
  rw [outcome_of_asksToCheckAt hfromOperands, outcome_of_asksToCheckAt hfromLines]

/-- A blank line first, an empty one between two expressions, lines that end in either way, and a
last one that does not end. The blanks around the second expression stay. -/
theorem outcome_of_onLines_two_expressions :
    OnLines ["1+1", " 2 "] "\u3000\r\n1+1\r\n\n 2 ".toList ∧
      outcome ["-v", "check", "-je", "postfix", "--", "1+1", " 2 "] .empty =
        outcome ["-v", "check", "-je", "postfix"] "\u3000\r\n1+1\r\n\n 2 ".toUTF8 := by
  have htext : OnLines ["1+1", " 2 "] "\u3000\r\n1+1\r\n\n 2 ".toList :=
    @OnLines.blank _ ['\u3000'] _ _ rfl (by decide) (Or.inr rfl)
      (@OnLines.line "1+1" _ _ _ (Or.inr rfl)
        (@OnLines.blank _ [] _ _ rfl (by decide) (Or.inl rfl) OnLines.lastLine))
  obtain ⟨-, houtcome⟩ := outcome_of_onLines
    (show Invocation.ofArguments? 0 ["-v", "check", "-je", "postfix"] =
      some { verbosity := 1, request := .check [] { engine := .stack } true } from rfl)
    (by decide) (List.cons_ne_nil "1+1" [" 2 "]) (by decide +kernel) htext .empty
  rw [String.ofList_toList] at houtcome
  exact ⟨htext, houtcome⟩

end RuleLang
