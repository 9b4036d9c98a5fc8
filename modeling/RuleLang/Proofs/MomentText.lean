import RuleLang.Moment
import RuleLang.Proofs.DigitRuns

/-!
# The text of a moment

A moment is written as a date, with one of two marks between its fields, and behind it, unless it is
midnight, a space and the time (`Moment.WrittenAs`). Midnight may be written either way. A text is
read as a moment exactly where the moment is written so (`Moment.read?_eq_some_iff`), and so a text
denotes one moment at most, while a moment has up to eight texts.
-/

namespace RuleLang

namespace Moment

open Digit (number? number?_eq_some_iff number?_last)

variable {cs : List Char} {m : Moment}

/-- The date of a moment, with the given marks between its fields. -/
def dateChars (m : Moment) (mark mark' : Char) : List Char :=
  Digit.last 4 m.year ++ mark :: Digit.last 2 m.month ++ mark' :: Digit.last 2 m.day

/-- The time of day of a moment. -/
def clockChars (m : Moment) : List Char :=
  Digit.last 2 m.hour ++ ':' :: Digit.last 2 m.minute ++ ':' :: Digit.last 2 m.second

/-- **The texts of a moment.** -/
inductive WrittenAs (m : Moment) : List Char → Prop where
  | date {mark mark' : Char} (hmark : isDateMark mark = true) (hmark' : isDateMark mark' = true)
      (hmidnight : m.hour = 0 ∧ m.minute = 0 ∧ m.second = 0) : WrittenAs m (m.dateChars mark mark')
  | dateTime {mark mark' : Char} (hmark : isDateMark mark = true)
      (hmark' : isDateMark mark' = true) :
      WrittenAs m (m.dateChars mark mark' ++ ' ' :: m.clockChars)

/-- In the text of a moment there are digits, the two marks of a date, a space and colons. -/
theorem WrittenAs.isDigit_or_mem (h : m.WrittenAs cs) :
    ∀ c ∈ cs, Digit.isDigit c = true ∨ c ∈ ['-', '/', ' ', ':'] := by
  have hlast {places n : Nat} {c : Char} (hc : c ∈ Digit.last places n) :
      Digit.isDigit c = true ∨ c ∈ ['-', '/', ' ', ':'] := Or.inl (Digit.isDigit_of_mem_last hc)
  -- both forms have the date, so its characters are settled before the forms are told apart
  have hdate {mark mark' : Char} (hmark : isDateMark mark = true)
      (hmark' : isDateMark mark' = true) :
      ∀ c ∈ m.dateChars mark mark', Digit.isDigit c = true ∨ c ∈ ['-', '/', ' ', ':'] := by
    have hmem {mark : Char} (hmark : isDateMark mark = true) : mark ∈ ['-', '/', ' ', ':'] := by
      simp only [isDateMark, Bool.or_eq_true, decide_eq_true_eq] at hmark
      rcases hmark with rfl | rfl <;> decide
    intro c hc
    simp only [dateChars, List.mem_append, List.mem_cons] at hc
    rcases hc with (hc | rfl | hc) | rfl | hc
    · exact hlast hc
    · exact Or.inr (hmem hmark)
    · exact hlast hc
    · exact Or.inr (hmem hmark')
    · exact hlast hc
  cases h with
  | date hmark hmark' _ => exact hdate hmark hmark'
  | dateTime hmark hmark' =>
    intro c hc
    simp only [clockChars, List.mem_append, List.mem_cons] at hc
    rcases hc with hc | rfl | (hc | rfl | hc) | rfl | hc
    · exact hdate hmark hmark' c hc
    · exact Or.inr (by decide)
    · exact hlast hc
    · exact Or.inr (by decide)
    · exact hlast hc
    · exact Or.inr (by decide)
    · exact hlast hc

/-- A date is read from its digits with a mark between the fields, and gives numbers that have
room in them. -/
theorem readDate?_eq_some_iff {year month day : Nat} :
    readDate? cs = some (year, month, day) ↔
      (year < 10 ^ 4 ∧ month < 10 ^ 2 ∧ day < 10 ^ 2) ∧
      ∃ mark mark', isDateMark mark = true ∧ isDateMark mark' = true ∧
        cs = Digit.last 4 year ++ mark :: Digit.last 2 month ++ mark' :: Digit.last 2 day := by
  constructor
  · intro h
    unfold readDate? at h
    split at h
    · rename_i y₁ y₂ y₃ y₄ mark m₁ m₂ mark' d₁ d₂
      obtain ⟨⟨⟩, hmarks, h⟩ := Option.bind_eq_some_iff.mp h
      obtain ⟨y, hy, h⟩ := Option.bind_eq_some_iff.mp h
      obtain ⟨m, hm, h⟩ := Option.bind_eq_some_iff.mp h
      obtain ⟨d, hd, h⟩ := Option.bind_eq_some_iff.mp h
      cases h
      have hmarks : isDateMark mark = true ∧ isDateMark mark' = true := by
        simpa [guard] using hmarks
      obtain ⟨hy, hyear⟩ := (number?_eq_some_iff (List.cons_ne_nil _ _)).mp hy
      obtain ⟨hm, hmonth⟩ := (number?_eq_some_iff (List.cons_ne_nil _ _)).mp hm
      obtain ⟨hd, hday⟩ := (number?_eq_some_iff (List.cons_ne_nil _ _)).mp hd
      refine ⟨⟨hy, hm, hd⟩, mark, mark', hmarks.1, hmarks.2, ?_⟩
      -- the ten characters are taken field by field, so that each field is a run of digits
      change [y₁, y₂, y₃, y₄] ++ mark :: [m₁, m₂] ++ mark' :: [d₁, d₂] = _
      rw [hyear, hmonth, hday]
      rfl
    · cases h
  · rintro ⟨⟨hyear, hmonth, hday⟩, mark, mark', hmark, hmark', rfl⟩
    change (do
      guard (isDateMark mark && isDateMark mark')
      return (← number? (Digit.last 4 year), ← number? (Digit.last 2 month),
        ← number? (Digit.last 2 day))) = _
    rw [hmark, hmark', number?_last (by decide) hyear, number?_last (by decide) hmonth,
      number?_last (by decide) hday]
    rfl

/-- A time of day is read from its digits with colons between them. -/
theorem readClock?_eq_some_iff {hour minute second : Nat} :
    readClock? cs = some (hour, minute, second) ↔
      (hour < 10 ^ 2 ∧ minute < 10 ^ 2 ∧ second < 10 ^ 2) ∧
      cs = Digit.last 2 hour ++ ':' :: Digit.last 2 minute ++ ':' :: Digit.last 2 second := by
  constructor
  · intro h
    unfold readClock? at h
    split at h
    · rename_i h₁ h₂ m₁ m₂ s₁ s₂
      obtain ⟨hr, hhr, h⟩ := Option.bind_eq_some_iff.mp h
      obtain ⟨m, hm, h⟩ := Option.bind_eq_some_iff.mp h
      obtain ⟨s, hs, h⟩ := Option.bind_eq_some_iff.mp h
      cases h
      obtain ⟨hhr, hhour⟩ := (number?_eq_some_iff (List.cons_ne_nil _ _)).mp hhr
      obtain ⟨hm, hminute⟩ := (number?_eq_some_iff (List.cons_ne_nil _ _)).mp hm
      obtain ⟨hs, hsecond⟩ := (number?_eq_some_iff (List.cons_ne_nil _ _)).mp hs
      refine ⟨⟨hhr, hm, hs⟩, ?_⟩
      -- as for a date, the characters are taken field by field
      change [h₁, h₂] ++ ':' :: [m₁, m₂] ++ ':' :: [s₁, s₂] = _
      rw [hhour, hminute, hsecond]
      rfl
    · cases h
  · rintro ⟨⟨hhour, hminute, hsecond⟩, rfl⟩
    change (do
      return (← number? (Digit.last 2 hour), ← number? (Digit.last 2 minute),
        ← number? (Digit.last 2 second))) = _
    rw [number?_last (by decide) hhour, number?_last (by decide) hminute,
      number?_last (by decide) hsecond]
    rfl

/-- Behind a date there is nothing, which is midnight, or a space and a time of day. -/
theorem readTime?_eq_some_iff {time : Nat × Nat × Nat} :
    readTime? cs = some time ↔
      cs = [] ∧ time = (0, 0, 0) ∨ ∃ clock, cs = ' ' :: clock ∧ readClock? clock = some time := by
  constructor
  · intro h
    unfold readTime? at h
    split at h
    · exact Or.inl ⟨rfl, (Option.some.inj h).symm⟩
    · rename_i clock
      exact Or.inr ⟨clock, rfl, h⟩
    · cases h
  · rintro (⟨rfl, rfl⟩ | ⟨clock, rfl, h⟩)
    · rfl
    · exact h

/-- The fields of a moment have as many digits as they are written with. -/
theorem fields_lt (m : Moment) :
    (m.year < 10 ^ 4 ∧ m.month < 10 ^ 2 ∧ m.day < 10 ^ 2) ∧
      (m.hour < 10 ^ 2 ∧ m.minute < 10 ^ 2 ∧ m.second < 10 ^ 2) := by
  obtain ⟨hyear, ⟨-, hmonth⟩, -, hday⟩ := m.onCalendar
  obtain ⟨hhour, hminute, hsecond⟩ := m.onClock
  -- days depend on the month and the year, but have two digits in any case
  have hdays : daysInMonth m.year m.month ≤ 31 := by
    unfold daysInMonth
    split
    · split <;> decide
    · split <;> decide
  omega

theorem length_dateChars (m : Moment) (mark mark' : Char) :
    (m.dateChars mark mark').length = 10 := rfl

/-- A moment is read from a date and a time that give its fields. -/
theorem read?_of_parts {date time : List Char} (hlength : date.length = 10)
    (hdate : readDate? date = some (m.year, m.month, m.day))
    (htime : readTime? time = some (m.hour, m.minute, m.second)) :
    read? (date ++ time) = some m := by
  unfold read?
  rw [List.take_left' hlength, List.drop_left' hlength, hdate, htime]
  exact dif_pos ⟨m.onCalendar, m.onClock⟩

/-- **Reading a moment** gives the one that is written so. -/
theorem read?_eq_some_iff : read? cs = some m ↔ m.WrittenAs cs := by
  constructor
  · intro h
    unfold read? at h
    obtain ⟨⟨year, month, day⟩, hdate, h⟩ := Option.bind_eq_some_iff.mp h
    obtain ⟨⟨hour, minute, second⟩, htime, h⟩ := Option.bind_eq_some_iff.mp h
    dsimp only at h
    split at h
    · cases h
      -- the date is in the first ten characters, and the time in the others
      obtain ⟨-, mark, mark', hmark, hmark', htake⟩ := readDate?_eq_some_iff.mp hdate
      rw [← List.take_append_drop 10 cs, htake]
      rcases readTime?_eq_some_iff.mp htime with ⟨hdrop, htime⟩ | ⟨clock, hdrop, hclock⟩
      · cases htime
        rw [hdrop, List.append_nil]
        exact .date hmark hmark' ⟨rfl, rfl, rfl⟩
      · obtain ⟨-, rfl⟩ := readClock?_eq_some_iff.mp hclock
        rw [hdrop]
        exact .dateTime hmark hmark'
    · cases h
  · intro h
    obtain ⟨hdateLt, hclockLt⟩ := m.fields_lt
    have hdate {mark mark' : Char} (hmark : isDateMark mark = true)
        (hmark' : isDateMark mark' = true) :
        readDate? (m.dateChars mark mark') = some (m.year, m.month, m.day) :=
      readDate?_eq_some_iff.mpr ⟨hdateLt, mark, mark', hmark, hmark', rfl⟩
    cases h with
    | date hmark hmark' hmidnight =>
      obtain ⟨hhour, hminute, hsecond⟩ := hmidnight
      have htime : readTime? [] = some (m.hour, m.minute, m.second) := by
        rw [hhour, hminute, hsecond]
        rfl
      have hread := read?_of_parts (m.length_dateChars _ _) (hdate hmark hmark') htime
      rwa [List.append_nil] at hread
    | dateTime hmark hmark' =>
      have hclock : readClock? m.clockChars = some (m.hour, m.minute, m.second) :=
        readClock?_eq_some_iff.mpr ⟨hclockLt, rfl⟩
      exact read?_of_parts (m.length_dateChars _ _) (hdate hmark hmark') hclock

end Moment

end RuleLang
