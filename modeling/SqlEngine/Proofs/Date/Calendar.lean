import Mathlib.Tactic.IntervalCases
import SqlEngine.Date.Calendar

/-!
# Dates — days and their numbers

The calendar repeats after an era of 400 years.  Years are counted from March, so that the day that
is at times missing is the last of the year, of the four years and of the century; `EraDay` counts a
day of the era in this way.  A number therefore stands for a day that exists, and is the number of
that day.

* `Day.exists_ofNumber`: the year, month and day that a number stands for.
* `Day.number_ofNumber`: the number of the day is the number that it is made of.
* `Day.isValid_ofNumber`: the day exists.
-/

namespace SqlEngine.Date

/-! ### Days of an era -/

/-- A day of an era by its century, the four years in it, the year in these and the day of the year,
each counted from zero.  Only the fourth year has a last day, unless it ends a century that does not
end the era. -/
structure EraDay (day century fourYears year dayOfYear : Nat) : Prop where
  century_lt : century < 4
  fourYears_lt : fourYears < 25
  year_lt : year < 4
  day_eq : day = 36524 * century + 1461 * fourYears + 365 * year + dayOfYear
  short : dayOfYear < 365 ∨ dayOfYear = 365 ∧ year = 3 ∧ (fourYears < 24 ∨ century = 3)

theorem exists_eraDay {day : Nat} (h : day < 146097) : ∃ c f y d, EraDay day c f y d := by
  -- the last century, the last four years and the last year may each be a day longer
  obtain ⟨c, inCentury, hc, rfl, hcentury⟩ : ∃ c d, c < 4 ∧ day = 36524 * c + d ∧
      (d < 36524 ∨ d = 36524 ∧ c = 3) :=
    ⟨min (day / 36524) 3, day - 36524 * min (day / 36524) 3, by omega, by omega, by omega⟩
  obtain ⟨f, inFour, hf, rfl, hfour⟩ : ∃ f d, f < 25 ∧ inCentury = 1461 * f + d ∧ d < 1461 :=
    ⟨inCentury / 1461, inCentury % 1461, by omega, by omega, by omega⟩
  obtain ⟨y, d, hy, rfl, hd⟩ : ∃ y d, y < 4 ∧ inFour = 365 * y + d ∧ (d < 365 ∨ d = 365 ∧ y = 3) :=
    ⟨min (inFour / 365) 3, inFour - 365 * min (inFour / 365) 3, by omega, by omega, by omega⟩
  exact ⟨c, f, y, d, hc, hf, hy, by omega, by omega⟩

/-- The day of the era that a number stands for. -/
def dayOfEra (n : Int) : Nat :=
  ((n + 719468) % 146097).toNat

/-- The year of a day of an era. -/
def yearOfEra (day : Nat) : Nat :=
  (day - day / 1460 + day / 36524 - day / 146096) / 365

namespace EraDay

variable {day c f y d : Nat}

theorem yearOfEra_eq (h : EraDay day c f y d) : yearOfEra day = 100 * c + 4 * f + y := by
  have hday := h.day_eq
  obtain ⟨hc, hf, hy, -, hd⟩ := h
  simp only [yearOfEra]
  by_cases hlast : day = 146096
  · subst hlast
    omega
  have hcentury : day / 36524 = c := by omega
  have hera : day / 146096 = 0 := by omega
  rw [hcentury, hera]
  by_cases hlate : 24 * c + f + 365 * y + d < 1460
  · have hleaps : day / 1460 = 25 * c + f := by omega
    omega
  · have hleaps : day / 1460 = 25 * c + f + 1 := by omega
    omega

/-- The days of the era before the year. -/
theorem dayOfYear_eq (h : EraDay day c f y d) :
    day - (365 * yearOfEra day + yearOfEra day / 4 - yearOfEra day / 100) = d := by
  rw [h.yearOfEra_eq]
  obtain ⟨hc, hf, hy, rfl, -⟩ := h
  omega

theorem dayOfYear_le (h : EraDay day c f y d) : d ≤ 365 := by
  have := h.short
  omega

/-- A year that has its last day is followed by the months of a leap year. -/
theorem isLeap_of_last (h : EraDay day c f y d) (hlast : d = 365) (era : Int) :
    isLeap (400 * era + (100 * c + 4 * f + y : Nat) + 1) = true := by
  obtain ⟨hc, hf, hy, -, hd⟩ := h
  simp only [isLeap, Bool.and_eq_true, Bool.or_eq_true, beq_iff_eq, bne_iff_ne]
  omega

end EraDay

/-! ### Days of a year -/

/-- A day of a year that begins in March, which is month 0 of it. -/
def Day.ofYear (year : Int) (dayOfYear : Nat) : Day :=
  let month := (5 * dayOfYear + 2) / 153
  ⟨if month < 10 then year else year + 1, if month < 10 then month + 3 else month - 9,
    dayOfYear - (153 * month + 2) / 5 + 1⟩

/-- The day exists in the calendar, whatever its year. -/
def Day.InMonth (d : Day) : Prop :=
  (1 ≤ d.month ∧ d.month ≤ 12) ∧ 1 ≤ d.day ∧ d.day ≤ monthLength d.year d.month

theorem Day.number_ofYear (year : Int) {d : Nat} (h : d ≤ 365) :
    (Day.ofYear year d).number =
      365 * year + year / 4 - year / 100 + year / 400 + d - 719468 := by
  obtain ⟨m, hm⟩ : ∃ m, m = (5 * d + 2) / 153 := ⟨_, rfl⟩
  simp only [Day.ofYear, Day.number, ← hm]
  by_cases hlate : m < 10
  · have hmonth : ¬m + 3 ≤ 2 := by omega
    simp only [if_pos hlate, if_neg hmonth]
    omega
  · have hmonth : m - 9 ≤ 2 := by omega
    simp only [if_neg hlate, if_pos hmonth, Int.add_sub_cancel]
    omega

/-- The lengths of the months from March to January, as the days before the next month less the
days before the month. -/
theorem monthLength_fromMarch (year : Int) {m : Nat} (h : m < 11) :
    monthLength year (if m < 10 then m + 3 else m - 9) =
      (153 * (m + 1) + 2) / 5 - (153 * m + 2) / 5 := by
  interval_cases m <;> rfl

theorem le_monthLength_two (year : Int) : 28 ≤ monthLength year 2 := by
  simp only [monthLength]
  split <;> decide

theorem monthLength_le (year : Int) (m : Nat) : monthLength year m ≤ 31 := by
  simp only [monthLength]
  repeat' split
  all_goals decide

theorem Day.inMonth_ofYear {year : Int} {d : Nat}
    (h : d < 365 ∨ d = 365 ∧ isLeap (year + 1) = true) : (Day.ofYear year d).InMonth := by
  rcases h with hd | ⟨rfl, hleap⟩
  · obtain ⟨m, hm⟩ : ∃ m, m = (5 * d + 2) / 153 := ⟨_, rfl⟩
    simp only [Day.ofYear, InMonth, ← hm]
    by_cases hfebruary : m = 11
    · subst hfebruary
      have hlength := le_monthLength_two (year + 1)
      refine ⟨by decide, by omega, ?_⟩
      exact le_trans (by omega) hlength
    · have hlength := monthLength_fromMarch (if m < 10 then year else year + 1)
        (by omega : m < 11)
      rw [hlength]
      refine ⟨?_, by omega, by omega⟩
      split <;> omega
  · simp [Day.ofYear, InMonth, monthLength, hleap]

/-! ### Days by number -/

/-- The month of a day of the year, counted from March, is January or February from month 10 on. -/
theorem Day.ofNumber_eq (n : Int) {d : Nat} (hd : d ≤ 365)
    (h : dayOfEra n - (365 * yearOfEra (dayOfEra n) + yearOfEra (dayOfEra n) / 4 -
      yearOfEra (dayOfEra n) / 100) = d) :
    Day.ofNumber n = Day.ofYear (yearOfEra (dayOfEra n) + (n + 719468) / 146097 * 400) d := by
  obtain ⟨m, hm⟩ : ∃ m, m = (5 * d + 2) / 153 := ⟨_, rfl⟩
  have hlate : (if m < 10 then m + 3 else m - 9) ≤ 2 ↔ ¬ m < 10 := by split <;> omega
  have hof : Day.ofNumber n =
      let month := if m < 10 then m + 3 else m - 9
      let year := (yearOfEra (dayOfEra n) : Int) + (n + 719468) / 146097 * 400
      ⟨if month ≤ 2 then year + 1 else year, month, d - (153 * m + 2) / 5 + 1⟩ := by
    subst hm
    subst h
    rfl
  rw [hof]
  simp only [Day.ofYear, ← hm, hlate, ite_not]

/-- **The day of a number** is a day of the era of the number, in a year that begins in March. -/
theorem Day.exists_ofNumber (n : Int) : ∃ (era : Int) (day c f y d : Nat),
    n = 146097 * era + day - 719468 ∧ EraDay day c f y d ∧
      Day.ofNumber n = Day.ofYear (400 * era + (100 * c + 4 * f + y : Nat)) d := by
  have hlt : dayOfEra n < 146097 := by
    simp only [dayOfEra]
    omega
  obtain ⟨c, f, y, d, h⟩ := exists_eraDay hlt
  refine ⟨(n + 719468) / 146097, dayOfEra n, c, f, y, d, ?_, h, ?_⟩
  · simp only [dayOfEra]
    omega
  · rw [Day.ofNumber_eq n h.dayOfYear_le h.dayOfYear_eq, h.yearOfEra_eq, Int.add_comm, Int.mul_comm]

/-- **A number is the number of the day that it stands for.** -/
theorem Day.number_ofNumber (n : Int) : (Day.ofNumber n).number = n := by
  obtain ⟨era, day, c, f, y, d, rfl, h, hday⟩ := Day.exists_ofNumber n
  rw [hday, Day.number_ofYear _ h.dayOfYear_le]
  obtain ⟨hc, hf, hy, rfl, -⟩ := h
  omega

theorem Day.inMonth_ofNumber (n : Int) : (Day.ofNumber n).InMonth := by
  obtain ⟨era, day, c, f, y, d, -, h, hday⟩ := Day.exists_ofNumber n
  rw [hday]
  refine Day.inMonth_ofYear ?_
  rcases h.short with hd | ⟨hd, -⟩
  · exact .inl hd
  · exact .inr ⟨hd, h.isLeap_of_last hd era⟩

/-- **The day of a number exists**, if its year is in range. -/
theorem Day.isValid_ofNumber {n : Int} (hfirst : firstYear ≤ (Day.ofNumber n).year)
    (hlast : (Day.ofNumber n).year ≤ lastYear) : (Day.ofNumber n).isValid = true := by
  obtain ⟨⟨hmonth, hyearEnd⟩, hday, hmonthEnd⟩ := Day.inMonth_ofNumber n
  simp only [Day.isValid, Bool.and_eq_true, decide_eq_true_eq]
  exact ⟨⟨⟨⟨⟨hfirst, hlast⟩, hmonth⟩, hyearEnd⟩, hday⟩, hmonthEnd⟩

end SqlEngine.Date
