import Mathlib.Data.Int.Order.Basic

/-! # The civil calendar

Days are counted from 1 January 1970.  A year is counted from its 1 March, so that a leap day is
the last one of its year, of its four years, of its century and of its four centuries. -/

namespace Calendar

structure Date where
  year : ℤ
  month : ℤ
  day : ℤ
  deriving DecidableEq

/-- The days of a year, from 1 March on, before its month `m`: 0, 31, 61, ... -/
def daysBefore (m : ℤ) : ℤ := (153 * m + 2) / 5

/-- The year of 1 March of a day, and the days before it in that year. -/
def yearOf (days : ℤ) : ℤ × ℤ :=
  let days := days + 719468
  let fourCenturies := days / 146097
  let rest := days % 146097
  let centuries := min (rest / 36524) 3
  let rest := rest - 36524 * centuries
  let fourYears := rest / 1461
  let rest := rest % 1461
  let years := min (rest / 365) 3
  (400 * fourCenturies + 100 * centuries + 4 * fourYears + years, rest - 365 * years)

/-- The date behind so many days of a year of 1 March. -/
def dateInYear (y rest : ℤ) : Date :=
  let m := (5 * rest + 2) / 153
  { year := if m < 10 then y else y + 1
    month := if m < 10 then m + 3 else m - 9
    day := rest - daysBefore m + 1 }

/-- The date of a day. -/
def dateOf (days : ℤ) : Date := dateInYear (yearOf days).1 (yearOf days).2

/-- The day of the week; 0 is Sunday. -/
def weekdayOf (days : ℤ) : ℤ := (days + 4) % 7

example : dateOf 19782 = ⟨2024, 2, 29⟩ ∧ weekdayOf 19782 = 4 := by decide

end Calendar
