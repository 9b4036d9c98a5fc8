import RuleLang.Engine
import RuleLang.Text.Lines
import RuleLang.Value.Basic

/-!
# The log

What the program notes on its way, as data (`Record`), and computations that note it (`Logged`). A
computation that fails keeps what it noted before, and nothing is noted after.

Which records are written, and how their lines look, is a matter of the logger that is set up
(`Logger`). It asks for a level, the more important ones included, unless the environment says
otherwise.
-/

namespace RuleLang

/-- How much a record matters, the most first. -/
inductive Level where
  | warn
  | info
  | debug
  | trace
deriving DecidableEq, Repr

namespace Level

def name : Level → String
  | warn => "WARN"
  | info => "INFO"
  | debug => "DEBUG"
  | trace => "TRACE"

/-- The level's place, the most important one having the least. -/
def rank : Level → Nat
  | warn => 0
  | info => 1
  | debug => 2
  | trace => 3

/-- The least important level that is wanted with so many options for the log. -/
def ofVerbosity : (verbosity : Nat) → Level
  | 0 => warn
  | 1 => info
  | 2 => debug
  | _ => trace

end Level

/-- Something noted. -/
inductive Record where
  /-- A part of an expression was left out: it is no literal. -/
  | discarded (text : String) (offset : Nat)
  /-- An expression was split into tokens. -/
  | tokenized (expression : String) (tokens : List Value)
  /-- Tokens were put into postfix order. -/
  | reordered (values : List Value)
  /-- An operator was applied. -/
  | applied (op : Operator) (left right result : Value)
  /-- An expression of a batch was evaluated. -/
  | checked (expression : String) (result : Value)
  /-- A batch of so many expressions is about to be checked. -/
  | checking (count : Nat) (engine : Engine)
deriving DecidableEq

namespace Record

def level : Record → Level
  | discarded _ _ => .warn
  | tokenized _ _ => .debug
  | reordered _ => .debug
  | applied _ _ _ _ => .trace
  | checked _ _ => .info
  | checking _ _ => .debug

/-- The part of the program that a record comes from, as the log names it. -/
def target : Record → String
  | discarded _ _ | tokenized _ _ => "ruleval::lexer"
  | reordered _ => "ruleval::parser"
  | applied _ _ _ _ => "ruleval::evaluator"
  | checked _ _ => "ruleval::cli::check"
  | checking _ _ => "ruleval"

def message : Record → String
  | discarded text offset => s!"Discarding unrecognised token `{text}` at offset {offset}"
  | tokenized expression tokens =>
    "Tokenized `" ++ expression ++ "` into [" ++ Value.literals ", " tokens ++ "]"
  | reordered values => "Postfix order: " ++ Value.literals " " values
  | applied op left right result =>
    s!"{left.literal} {op.symbol} {right.literal} => {result.text}"
  | checked expression result => s!"`{expression}` => {result.text}"
  | checking count engine => s!"Checking {count} expression(s) with {engine.name} engine"

/-- Whether a record is wanted by one who asks for a level and all more important ones. -/
def isWithin (level : Level) (record : Record) : Bool :=
  record.level.rank ≤ level.rank

/-- A record as a line of the log. -/
def line (record : Record) : String :=
  s!"{record.level.name} {record.target}: {record.message}"

end Record

/-- What writes records to the standard error. -/
structure Logger where
  /-- Whether a record is wanted where the arguments ask for a level. The environment may ask for
  other records than the level does. -/
  wants : Level → Record → Bool := Record.isWithin
  /-- The line of a record. It may depend on the records above it, as columns do. -/
  line : (above : List Record) → Record → String

namespace Logger

/-- Writes nothing. -/
def off : Logger where
  wants _ _ := false
  line _ record := record.line

/-- Writes what the level asks for, each record by itself. -/
def plain : Logger where
  line _ record := record.line

/-- The lines of records that stand below others. -/
def lines (logger : Logger) (above : List Record) : List Record → List String
  | [] => []
  | record :: records => logger.line above record :: logger.lines (above ++ [record]) records

/-- What is written of records where the arguments ask for a level. -/
def text (logger : Logger) (level : Level) (records : List Record) : String :=
  unlines (logger.lines [] (records.filter (logger.wants level)))

end Logger

/-- A computation that notes records and ends in a value or an error. -/
structure Logged (ε α : Type) where
  /-- What was noted, the first record first. -/
  records : List Record
  /-- How the computation ended. -/
  outcome : Except ε α

namespace Logged

variable {ε ε' α β : Type}

/-- Notes one record. -/
def note (record : Record) : Logged ε Unit :=
  ⟨[record], .ok ()⟩

/-- A computation that notes nothing. -/
def ofExcept (outcome : Except ε α) : Logged ε α :=
  ⟨[], outcome⟩

/-- A computation that notes nothing and ends in an error. -/
def fail (e : ε) : Logged ε α :=
  ⟨[], .error e⟩

/-- The computation `x`, and after it, if it ends in a value, the one that `f` gives. -/
protected def bind (x : Logged ε α) (f : α → Logged ε β) : Logged ε β :=
  match x.outcome with
  | .error e => ⟨x.records, .error e⟩
  | .ok a =>
    let y := f a
    ⟨x.records ++ y.records, y.outcome⟩

instance : Monad (Logged ε) where
  pure a := ⟨[], .ok a⟩
  bind := Logged.bind

theorem pure_eq (a : α) : (pure a : Logged ε α) = ⟨[], .ok a⟩ := rfl

theorem bind_of_ok (records : List Record) (a : α) (f : α → Logged ε β) :
    (⟨records, .ok a⟩ : Logged ε α) >>= f = ⟨records ++ (f a).records, (f a).outcome⟩ := rfl

theorem bind_of_error (records : List Record) (e : ε) (f : α → Logged ε β) :
    (⟨records, .error e⟩ : Logged ε α) >>= f = ⟨records, .error e⟩ := rfl

instance : LawfulMonad (Logged ε) :=
  LawfulMonad.mk' (Logged ε)
    (by rintro α ⟨records, _ | a⟩ <;> simp [Functor.map, Logged.bind])
    (by intro α β a f; simp [bind, pure, Logged.bind])
    (by
      rintro α β γ ⟨records, _ | a⟩ f g
      · rfl
      · cases h : (f a).outcome <;> simp [bind, Logged.bind, h])

/-- The computation with its error replaced. -/
def mapError (f : ε → ε') (x : Logged ε α) : Logged ε' α :=
  ⟨x.records, x.outcome.mapError f⟩

end Logged

end RuleLang
