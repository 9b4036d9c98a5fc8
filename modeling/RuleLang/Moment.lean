import RuleLang.Text.Digit

/-!
# Moments

Dates with a time of day, in the proleptic Gregorian calendar from the year 0000 to 9999. A text
gives a date alone, which is midnight, or a date, a space and a time (`Moment.read?`). Every minute
may have a second 60, the leap second, which comes after its second 59 and before the next minute.

Moments are ordered by their fields, the year first (`Moment.fields`).
-/

namespace RuleLang

/-- Whether a year has a 29th of February. The year 0000 has. -/
def isLeapYear (year : Nat) : Bool :=
  year % 4 = 0 && (year % 100 ≠ 0 || year % 400 = 0)

/-- The number of days in a month, months being counted from 1. -/
def daysInMonth (year month : Nat) : Nat :=
  if month = 2 then (if isLeapYear year then 29 else 28)
  else if month = 4 ∨ month = 6 ∨ month = 9 ∨ month = 11 then 30
  else 31

/-- Whether there is such a day in the calendar. -/
def OnCalendar (year month day : Nat) : Prop :=
  year ≤ 9999 ∧ (1 ≤ month ∧ month ≤ 12) ∧ 1 ≤ day ∧ day ≤ daysInMonth year month

instance (year month day : Nat) : Decidable (OnCalendar year month day) :=
  inferInstanceAs (Decidable (_ ∧ _))

/-- Whether there is such a time on the clock. -/
def OnClock (hour minute second : Nat) : Prop :=
  hour ≤ 23 ∧ minute ≤ 59 ∧ second ≤ 60

instance (hour minute second : Nat) : Decidable (OnClock hour minute second) :=
  inferInstanceAs (Decidable (_ ∧ _))

/-- A date and a time of day. -/
structure Moment where
  year : Nat
  month : Nat
  day : Nat
  hour : Nat
  minute : Nat
  /-- Up to 60. -/
  second : Nat
  /-- The date is in the calendar. -/
  onCalendar : OnCalendar year month day
  /-- The time is on the clock. -/
  onClock : OnClock hour minute second
deriving DecidableEq

namespace Moment

/-- The fields, the most significant first. -/
def fields (m : Moment) : List Nat :=
  [m.year, m.month, m.day, m.hour, m.minute, m.second]

/-- The order of time. -/
def order (a b : Moment) : Ordering :=
  compareOfLessAndEq a.fields b.fields

/-- Whether a character may stand between the fields of a date. -/
def isDateMark (c : Char) : Bool :=
  c = '-' || c = '/'

/-- Year, month and day, with a mark between them. -/
def readDate? : List Char → Option (Nat × Nat × Nat)
  | [y₁, y₂, y₃, y₄, mark, m₁, m₂, mark', d₁, d₂] => do
    guard (isDateMark mark && isDateMark mark')
    return (← Digit.number? [y₁, y₂, y₃, y₄], ← Digit.number? [m₁, m₂], ← Digit.number? [d₁, d₂])
  | _ => none

/-- Hour, minute and second, with colons between them. -/
def readClock? : List Char → Option (Nat × Nat × Nat)
  | [h₁, h₂, ':', m₁, m₂, ':', s₁, s₂] => do
    return (← Digit.number? [h₁, h₂], ← Digit.number? [m₁, m₂], ← Digit.number? [s₁, s₂])
  | _ => none

/-- The time that follows a date of ten characters: midnight if nothing follows. -/
def readTime? : List Char → Option (Nat × Nat × Nat)
  | [] => some (0, 0, 0)
  | ' ' :: cs => readClock? cs
  | _ => none

/-- The moment that a text denotes, if it has the form of one and is on calendar and clock. -/
def read? (cs : List Char) : Option Moment := do
  let (year, month, day) ← readDate? (cs.take 10)
  let (hour, minute, second) ← readTime? (cs.drop 10)
  if valid : OnCalendar year month day ∧ OnClock hour minute second then
    some { year, month, day, hour, minute, second, onCalendar := valid.1, onClock := valid.2 }
  else none

/-- The moment in the form `YYYY-MM-DDTHH:MM:SS`. -/
def text (m : Moment) : String :=
  String.ofList <| Digit.last 4 m.year ++ '-' :: Digit.last 2 m.month ++ '-' :: Digit.last 2 m.day
    ++ 'T' :: Digit.last 2 m.hour ++ ':' :: Digit.last 2 m.minute ++ ':' :: Digit.last 2 m.second

end Moment

end RuleLang
