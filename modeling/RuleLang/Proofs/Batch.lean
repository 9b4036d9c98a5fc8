import RuleLang.Command.Outcome
import RuleLang.Proofs.Outcome
import Mathlib.Data.List.Forall2

/-!
# Batches are all or nothing

Checking a batch is compared with checking each of its expressions in a batch of one. What carries
the comparison is that a batch is checked part by part: the reports on two batches put together are
the reports on the one and then, if it has any, those on the other (`reports_append`). A batch of
one ends in one report or in the error of its expression (`check_alone`), so a batch whose
expressions all pass alone collects their reports in order (`reports_of_reportedAlone`), and any
other batch stops at the first expression that fails, with the notes up to there and with no report
(`reports_of_failure`).

The program adds little to this: what it leaves behind is a function of what checking the batch
gives, whichever way the batch comes to it (`outcome_of_asksToCheckAt`). But a batch that passes may
have something noted, and that goes where the message of a failure goes. So the standard error of a
check that succeeds is not empty in general. It holds the log and nothing else, and it is empty just
if the logger wants none of the records (`Logger.text_eq_empty_iff`).
-/

namespace RuleLang

variable {options : CheckOptions} {json : Bool} {expression : String}
  {expressions before after : List String} {found : List Report}

/-! ### Batches of one -/

/-- An expression passes if the batch of it alone has its reports. -/
def Passes (options : CheckOptions) (expression : String) : Prop :=
  ∃ found, (check options [expression]).outcome = .ok found

theorem passes_iff :
    Passes options expression ↔ (check options [expression]).outcome.isOk = true := by
  rw [Passes]
  cases (check options [expression]).outcome with
  | error e => simp [Except.isOk, Except.toBool]
  | ok found => simp [Except.isOk, Except.toBool]

instance : DecidablePred (Passes options) :=
  fun _ => decidable_of_iff _ passes_iff.symm

/-- The expressions have the given reports, one each, when each is checked alone. -/
def ReportedAlone (options : CheckOptions) : List String → List Report → Prop :=
  List.Forall₂ fun expression found => (check options [expression]).outcome = .ok [found]

/-- What is noted when each of the expressions is checked alone. -/
def notedAlone (options : CheckOptions) (expressions : List String) : List Record :=
  expressions.flatMap fun expression => (check options [expression]).records

/-- A batch of one ends as the report on its expression does. -/
theorem check_alone (options : CheckOptions) (expression : String) :
    (∃ found, (check options [expression]).outcome = .ok [found]) ∨
      ∃ error, (report options expression).outcome = .error error ∧
        (check options [expression]).outcome = .error (.failed expression error) := by
  have hcheck : (check options [expression]).outcome =
      (report options expression).outcome.mapError (.failed expression) >>=
        fun found => .ok [found] := by
    rw [check, if_neg (List.cons_ne_nil expression []), reports, Logged.outcome_bind]
    rfl
  rw [hcheck]
  cases h : (report options expression).outcome with
  | ok found => exact Or.inl ⟨found, rfl⟩
  | error error => exact Or.inr ⟨error, rfl, rfl⟩

theorem ReportedAlone.passes (h : ReportedAlone options expressions found) :
    ∀ expression ∈ expressions, Passes options expression := by
  induction h with
  | nil =>
    intro expression hmem
    cases hmem
  | cons hfirst _ ih =>
    intro expression hmem
    rcases List.mem_cons.mp hmem with rfl | hmem
    · exact ⟨_, hfirst⟩
    · exact ih expression hmem

/-- The expressions of a batch all have their reports alone, or there is a first that fails. -/
theorem reportedAlone_or_failure (options : CheckOptions) (expressions : List String) :
    (∃ found, ReportedAlone options expressions found) ∨
      ∃ before failing after error found, expressions = before ++ failing :: after ∧
        ReportedAlone options before found ∧
        (report options failing).outcome = .error error ∧
        (check options [failing]).outcome = .error (.failed failing error) := by
  induction expressions with
  | nil => exact Or.inl ⟨[], List.Forall₂.nil⟩
  | cons first expressions ih =>
    rcases check_alone options first with ⟨report, hfirst⟩ | ⟨error, hreport, hcheck⟩
    · -- the first expression passes, and the others decide
      rcases ih with ⟨found, hfound⟩ | ⟨before, failing, after, error, found, rfl, hfound, herror⟩
      · exact Or.inl ⟨report :: found, List.Forall₂.cons hfirst hfound⟩
      · exact Or.inr ⟨first :: before, failing, after, error, report :: found, rfl,
          List.Forall₂.cons hfirst hfound, herror⟩
    · -- nothing is in front of the failure, and whatever the others are does not matter
      exact Or.inr ⟨[], first, expressions, error, [], rfl, List.Forall₂.nil, hreport, hcheck⟩

/-! ### Batches put together -/

/-- A batch is checked part by part. -/
theorem reports_append (options : CheckOptions) (first second : List String) :
    reports options (first ++ second) = do
      let ahead ← reports options first
      let behind ← reports options second
      return ahead ++ behind := by
  induction first with
  | nil => simp only [List.nil_append, reports, pure_bind, bind_pure]
  | cons expression first ih =>
    simp only [List.cons_append, reports, ih, bind_assoc, pure_bind]

theorem check_of_ne_nil (hne : expressions ≠ []) :
    check options expressions = reports options expressions :=
  if_neg hne

/-- The first expression of a batch is checked as it is alone. -/
theorem reports_cons (options : CheckOptions) (expression : String) (expressions : List String) :
    reports options (expression :: expressions) = do
      let ahead ← check options [expression]
      let behind ← reports options expressions
      return ahead ++ behind := by
  rw [check_of_ne_nil (List.cons_ne_nil expression [])]
  exact reports_append options [expression] expressions

/-- A batch whose expressions have their reports alone has these reports, in this order. -/
theorem reports_of_reportedAlone (h : ReportedAlone options expressions found) :
    reports options expressions = ⟨notedAlone options expressions, .ok found⟩ := by
  induction h with
  | nil => rfl
  | @cons expression report expressions found hfirst _ ih =>
    rw [reports_cons, Logged.bind_eq_of_ok hfirst, ih, Logged.bind_of_ok]
    simp only [Logged.pure_eq, notedAlone, List.flatMap_cons, List.append_nil,
      List.singleton_append]

/-- A batch stops at the first expression that fails: those after it leave no trace. -/
theorem reports_of_failure {failing : String} {error : CheckError}
    (hbefore : ReportedAlone options before found)
    (hfailing : (check options [failing]).outcome = .error error) :
    reports options (before ++ failing :: after) =
      ⟨notedAlone options (before ++ [failing]), .error error⟩ := by
  calc reports options (before ++ failing :: after)
      = (reports options before >>= fun ahead =>
          reports options (failing :: after) >>= fun behind => pure (ahead ++ behind)) :=
        reports_append options before (failing :: after)
    _ = (⟨notedAlone options before, .ok found⟩ >>= fun ahead =>
          ⟨(check options [failing]).records, .error error⟩ >>= fun behind =>
            pure (ahead ++ behind)) := by
        rw [reports_of_reportedAlone hbefore, reports_cons, Logged.bind_eq_of_error hfailing]
    _ = ⟨notedAlone options (before ++ [failing]), .error error⟩ := by
        rw [Logged.bind_of_ok, Logged.bind_of_error]
        simp only [notedAlone, List.flatMap_append, List.flatMap_cons, List.flatMap_nil,
          List.append_nil]

/-- A batch has one report on each of its expressions. -/
theorem forall₂_of_reports (h : (reports options expressions).outcome = .ok found) :
    List.Forall₂ (fun expression found => (report options expression).outcome = .ok found)
      expressions found := by
  induction expressions generalizing found with
  | nil =>
    cases h
    exact .nil
  | cons expression expressions ih =>
    rw [reports, Logged.outcome_bind] at h
    obtain ⟨first, hfirst, h⟩ := bind_eq_ok_iff.mp h
    rw [Logged.outcome_bind] at h
    obtain ⟨others, hothers, h⟩ := bind_eq_ok_iff.mp h
    cases h
    -- the name of the expression is put into errors only
    exact .cons (mapError_eq_ok_iff.mp hfirst) (ih hothers)

/-! ### The program -/

/-- The batch of a request: its operands, or the expressions of the input if it has none. -/
def batchOf (operands : List String) (input : ByteArray) : Except CommandError (List String) :=
  if operands = [] then expressionsOf input else .ok operands

/-- The arguments ask, with this input and so many options for the log, for a batch to be checked
with these options. -/
def AsksToCheckAt (verbosity : Nat) (arguments : List String) (input : ByteArray)
    (options : CheckOptions) (json : Bool) (expressions : List String) : Prop :=
  ∃ operands,
    Invocation.ofArguments? 0 arguments =
      some { verbosity, request := .check operands options json } ∧
    batchOf operands input = .ok expressions

/-- The arguments ask, with this input, for a batch to be checked with these options. -/
def AsksToCheck (arguments : List String) (input : ByteArray) (options : CheckOptions)
    (json : Bool) (expressions : List String) : Prop :=
  ∃ verbosity, AsksToCheckAt verbosity arguments input options json expressions

/-- Arguments that ask for the expressions to be checked, all of them behind two dashes. -/
def checkArguments (options : CheckOptions) (json : Bool) (expressions : List String) :
    List String :=
  "check" ::
    (match options.engine with
      | .tree => []
      | .stack => ["-e", "postfix"]) ++
    (if json then ["--json"] else []) ++
    (if options.parseOnly then ["--syntax-only"] else []) ++
    "--" :: expressions

/-- Every batch can be asked for with every choice of options, whatever its expressions look
like and whatever the input is. -/
theorem asksToCheckAt_checkArguments (options : CheckOptions) (json : Bool) (input : ByteArray)
    (hne : expressions ≠ []) :
    AsksToCheckAt 0 (checkArguments options json expressions) input options json expressions := by
  refine ⟨expressions, ?_, if_neg hne⟩
  -- the options are read one by one; behind the dashes the expressions are taken unread
  obtain ⟨_ | _, _ | _⟩ := options <;> cases json <;> rfl

/-- Every batch can be asked for, with as little of the log as there is. -/
theorem asksToCheck_checkArguments (options : CheckOptions) (json : Bool) (input : ByteArray)
    (hne : expressions ≠ []) :
    AsksToCheck (checkArguments options json expressions) input options json expressions :=
  ⟨0, asksToCheckAt_checkArguments options json input hne⟩

/-- What the program notes of a batch: that it is about to be checked, and what is noted of its
expressions up to the one that ends it. -/
def notedOfBatch (options : CheckOptions) (expressions checked : List String) : List Record :=
  .checking expressions.length options.engine :: notedAlone options checked

/-- What the program leaves behind is decided by what checking the batch gives. -/
theorem outcome_of_asksToCheckAt {verbosity : Nat} {arguments : List String} {input : ByteArray}
    (h : AsksToCheckAt verbosity arguments input options json expressions) :
    outcome arguments input =
      match (check options expressions).outcome with
      | .ok found =>
        { code := 0, stdout := unlines (found.map (Report.print json)), message := ""
          level := .ofVerbosity verbosity
          records := .checking expressions.length options.engine ::
            (check options expressions).records }
      | .error error =>
        { code := 1, stdout := "", message := error.message ++ "\n"
          level := .ofVerbosity verbosity
          records := .checking expressions.length options.engine ::
            (check options expressions).records } := by
  obtain ⟨operands, harguments, hbatch⟩ := h
  have houtput : (Request.check operands options json).output input =
      Logged.note (.checking expressions.length options.engine) >>= fun _ =>
        (check options expressions).mapError .check >>= fun found =>
          pure (unlines (found.map (Report.print json))) := by
    rw [Request.output]
    -- the batch comes from the input if there are no operands, and then reading it notes nothing
    by_cases hoperands : operands = []
    · rw [batchOf, if_pos hoperands] at hbatch
      rw [if_pos hoperands, hbatch]
      exact Logged.bind_of_ok [] expressions _
    · rw [batchOf, if_neg hoperands] at hbatch
      cases hbatch
      rw [if_neg hoperands]
      exact pure_bind expressions _
  rw [outcome, harguments]
  change Invocation.run input { verbosity, request := .check operands options json } = _
  rw [Invocation.run]
  dsimp only
  rw [houtput]
  obtain ⟨records, error | found⟩ := check options expressions
  · rfl
  · -- printing notes nothing
    change { code := 0, stdout := _, message := "", level := _
             records := _ :: (records ++ []) : Outcome } = _
    rw [List.append_nil]

/-- A check that ends with 0 has a report on each of its expressions, and prints these. -/
theorem exists_reports_of_code_eq_zero {arguments : List String} {input : ByteArray}
    (hasks : AsksToCheck arguments input options json expressions)
    (hcode : (outcome arguments input).code = 0) :
    ∃ found, List.Forall₂ (fun expression found => (report options expression).outcome = .ok found)
        expressions found ∧
      (outcome arguments input).stdout = unlines (found.map (Report.print json)) := by
  obtain ⟨verbosity, hasks⟩ := hasks
  rw [outcome_of_asksToCheckAt hasks] at hcode ⊢
  cases hcheck : (check options expressions).outcome with
  | error e =>
    rw [hcheck] at hcode
    cases hcode
  | ok found =>
    -- a batch that has reports is not empty
    have hreports : (reports options expressions).outcome = .ok found := by
      unfold check at hcheck
      split at hcheck
      · cases hcheck
      · exact hcheck
    exact ⟨found, forall₂_of_reports hreports, rfl⟩

/-! ### The standard error -/

/-- Lines leave no text just if there are none. -/
theorem unlines_eq_empty_iff {lines : List String} : unlines lines = "" ↔ lines = [] := by
  cases lines with
  | nil => exact iff_of_true rfl rfl
  | cons line lines =>
    refine iff_of_false (fun h => ?_) (List.cons_ne_nil line lines)
    have hlength := congrArg String.length h
    simp [unlines] at hlength

namespace Logger

variable {logger : Logger} {above records : List Record}

theorem lines_eq_nil_iff : logger.lines above records = [] ↔ records = [] := by
  cases records with
  | nil => exact iff_of_true rfl rfl
  | cons record records => exact iff_of_false (List.cons_ne_nil _ _) (List.cons_ne_nil _ _)

/-- **A log is empty** just if none of the records is wanted, however their lines look. -/
theorem text_eq_empty_iff {level : Level} :
    logger.text level records = "" ↔ ∀ record ∈ records, logger.wants level record = false := by
  -- each record that is wanted has a line to itself, be it an empty one
  rw [text, unlines_eq_empty_iff, lines_eq_nil_iff, List.filter_eq_nil_iff]
  simp only [Bool.not_eq_true]

end Logger

/-- **A batch is all or nothing, ordered and independent.** If every expression passes alone, the
batch has one report on each, in order and the same as alone, and the program prints them and ends
with 0 and no message. Its standard error is the log and nothing else, that is the note on the batch
and what is noted of each expression alone, and so it is empty just if none of this is wanted.
Otherwise there is a first expression that fails: the batch ends in the error that this one has
alone, the expressions after it leave nothing in the log, and the program prints nothing, ends with
1 and, below the log, names the expression and its error in its message. -/
theorem check_all_or_nothing (options : CheckOptions) (hne : expressions ≠ []) :
    ((∀ expression ∈ expressions, Passes options expression) →
      ∃ found, ReportedAlone options expressions found ∧
        check options expressions = ⟨notedAlone options expressions, .ok found⟩ ∧
        ∀ verbosity arguments input json,
          AsksToCheckAt verbosity arguments input options json expressions →
          outcome arguments input =
            { code := 0, stdout := unlines (found.map (Report.print json)), message := ""
              level := .ofVerbosity verbosity
              records := notedOfBatch options expressions expressions } ∧
          ∀ logger, (outcome arguments input).stderr logger =
              logger.text (.ofVerbosity verbosity) (notedOfBatch options expressions expressions) ∧
            ((outcome arguments input).stderr logger = "" ↔
              ∀ record ∈ notedOfBatch options expressions expressions,
                logger.wants (.ofVerbosity verbosity) record = false)) ∧
    ((¬ ∀ expression ∈ expressions, Passes options expression) →
      ∃ before failing after error, expressions = before ++ failing :: after ∧
        (∀ expression ∈ before, Passes options expression) ∧
        (report options failing).outcome = .error error ∧
        (check options [failing]).outcome = .error (.failed failing error) ∧
        check options expressions =
          ⟨notedAlone options (before ++ [failing]), .error (.failed failing error)⟩ ∧
        ∀ verbosity arguments input json,
          AsksToCheckAt verbosity arguments input options json expressions →
          outcome arguments input =
            { code := 1, stdout := ""
              message := (CheckError.failed failing error).message ++ "\n"
              level := .ofVerbosity verbosity
              records := notedOfBatch options expressions (before ++ [failing]) } ∧
          ∀ logger, (outcome arguments input).stderr logger =
            logger.text (.ofVerbosity verbosity)
                (notedOfBatch options expressions (before ++ [failing])) ++
              ((CheckError.failed failing error).message ++ "\n")) := by
  rcases reportedAlone_or_failure options expressions with
    ⟨found, hfound⟩ | ⟨before, failing, after, error, found, rfl, hbefore, hreport, herror⟩
  · refine ⟨fun _ => ?_, fun hnot => absurd hfound.passes hnot⟩
    have hcheck := (check_of_ne_nil hne).trans (reports_of_reportedAlone hfound)
    refine ⟨found, hfound, hcheck, ?_⟩
    intro verbosity arguments input json hasks
    have houtcome := outcome_of_asksToCheckAt hasks
    rw [hcheck] at houtcome
    refine ⟨houtcome, fun logger => ?_⟩
    -- there is no message below the log
    have hstderr : (outcome arguments input).stderr logger =
        logger.text (.ofVerbosity verbosity) (notedOfBatch options expressions expressions) := by
      rw [houtcome]
      exact String.append_empty
    exact ⟨hstderr, hstderr ▸ Logger.text_eq_empty_iff⟩
  · constructor
    · -- the expression that fails does not pass, so nothing is promised here
      intro hall
      obtain ⟨reports, hpass⟩ := hall failing (List.mem_append_right before List.mem_cons_self)
      rw [herror] at hpass
      cases hpass
    · intro _
      have hcheck := (check_of_ne_nil hne).trans
        (reports_of_failure hbefore herror)
      refine ⟨before, failing, after, error, rfl, hbefore.passes, hreport, herror, hcheck, ?_⟩
      intro verbosity arguments input json hasks
      have houtcome := outcome_of_asksToCheckAt hasks
      rw [hcheck] at houtcome
      exact ⟨houtcome, fun logger => by rw [houtcome]; rfl⟩

/-- Two expressions that pass, and the same two with a division by zero between them. -/
theorem check_all_or_nothing_division :
    (outcome ["check", "--", "1", "2"] .empty).code = 0 ∧
      (outcome ["check", "--", "1", "2"] .empty).stderr .plain = "" ∧
      (outcome ["check", "--", "1", "1/0", "2"] .empty).code = 1 ∧
      (outcome ["check", "--", "1", "1/0", "2"] .empty).stdout = "" := by
  obtain ⟨found, -, -, hpassed⟩ :=
    (check_all_or_nothing {} (List.cons_ne_nil "1" ["2"])).1 (by decide +kernel)
  obtain ⟨before, failing, after, error, -, -, -, -, -, hfailed⟩ :=
    (check_all_or_nothing {} (List.cons_ne_nil "1" ["1/0", "2"])).2 (by decide +kernel)
  obtain ⟨hpassed, hstderr⟩ := hpassed 0 _ .empty false
    (asksToCheckAt_checkArguments {} false .empty (List.cons_ne_nil "1" ["2"]))
  obtain ⟨hfailed, -⟩ := hfailed 0 _ .empty false
    (asksToCheckAt_checkArguments {} false .empty (List.cons_ne_nil "1" ["1/0", "2"]))
  -- what is noted of the two is of less importance than a warning
  exact ⟨congrArg Outcome.code hpassed, (hstderr .plain).2.mpr (by decide +kernel),
    congrArg Outcome.code hfailed, congrArg Outcome.stdout hfailed⟩

/-- A part of the expression is no literal and is left out, so it passes with a warning. Whatever
the line of the warning looks like, the standard error is not empty. -/
theorem check_passes_with_warning :
    AsksToCheck ["check", "--", "2 [x]"] .empty {} false ["2 [x]"] ∧
      (∀ expression ∈ ["2 [x]"], Passes {} expression) ∧
      (outcome ["check", "--", "2 [x]"] .empty).code = 0 ∧
      (outcome ["check", "--", "2 [x]"] .empty).stdout = "2\n" ∧
      (outcome ["check", "--", "2 [x]"] .empty).stderr .plain =
        "WARN ruleval::lexer: Discarding unrecognised token `[x]` at offset 2\n" ∧
      ∀ line, (outcome ["check", "--", "2 [x]"] .empty).stderr { line } ≠ "" := by
  refine ⟨asksToCheck_checkArguments {} false .empty (List.cons_ne_nil _ _), by decide +kernel,
    by decide +kernel, by decide +kernel, by decide +kernel, fun line hempty => ?_⟩
  -- which records there are does not depend on how their lines look
  obtain ⟨record, hmem, hwanted⟩ : ∃ record ∈ (outcome ["check", "--", "2 [x]"] .empty).records,
      record.isWithin (outcome ["check", "--", "2 [x]"] .empty).level = true := by decide +kernel
  have hunwanted := Logger.text_eq_empty_iff.mp (String.append_eq_empty_iff.mp hempty).1 record hmem
  exact Bool.false_ne_true (hunwanted.symm.trans hwanted)

end RuleLang
