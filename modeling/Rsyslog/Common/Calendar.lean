import Mathlib.Tactic.IntervalCases

/-!
# The proleptic Gregorian calendar

Dates are counted in days from 0000-01-01 of the proleptic Gregorian calendar, in which a year
is a leap year when it is divisible by 4 and, if it is divisible by 100, also by 400. The
weekday of a date is its day count shifted so that 0000-01-01, a Saturday, gets 6, with 0 for
Sunday.

Calendar formulas of Zeller's kind count years from March, so that the leap day is the last
day of its year: a date in January or February belongs to the previous March year, and the
months from March are numbered 4 to 15. In that count the days before a date have the closed
form `365 g + g/4 - g/100 + g/400 + ⌊306 f / 10⌋ + d` up to a constant, where `g` is the March
year and `f` the shifted month (`dayNumber_march`). A formula that drops the century terms is
right exactly where `g/100 - g/400` is constant.
-/

namespace Rsyslog.Common

/-- Leap years: divisible by 4, and by 400 if divisible by 100. -/
def isLeapYear (y : ℕ) : Bool :=
  y % 4 == 0 && (y % 100 != 0 || y % 400 == 0)

/-- The length of year `y` in days. -/
def daysInYear (y : ℕ) : ℕ :=
  if isLeapYear y then 366 else 365

/-- The length of month `m` (1 to 12) of year `y` in days. -/
def daysInMonth (y m : ℕ) : ℕ :=
  match m with
  | 2 => if isLeapYear y then 29 else 28
  | 4 | 6 | 9 | 11 => 30
  | _ => 31

/-- The days of the years before year `y`. -/
def daysBeforeYear : ℕ → ℕ
  | 0 => 0
  | y + 1 => daysBeforeYear y + daysInYear y

/-- The days of the months of year `y` before month `m`. -/
def daysBeforeMonth (y : ℕ) : ℕ → ℕ
  | 0 | 1 => 0
  | m + 2 => daysBeforeMonth y (m + 1) + daysInMonth y (m + 1)

/-- A day of a month of year `y`. -/
def IsDate (y m d : ℕ) : Prop :=
  1 ≤ m ∧ m ≤ 12 ∧ 1 ≤ d ∧ d ≤ daysInMonth y m

instance (y m d : ℕ) : Decidable (IsDate y m d) :=
  inferInstanceAs (Decidable (1 ≤ m ∧ m ≤ 12 ∧ 1 ≤ d ∧ d ≤ daysInMonth y m))

/-- The days from 0000-01-01 to a date. -/
def dayNumber (y m d : ℕ) : ℕ :=
  daysBeforeYear y + daysBeforeMonth y m + (d - 1)

/-- The weekday of a date, 0 for Sunday to 6 for Saturday. -/
def weekday (y m d : ℕ) : ℕ :=
  (dayNumber y m d + 6) % 7

/-- The year counted from March 1. -/
def marchYear (y m : ℕ) : ℕ :=
  if m < 3 then y - 1 else y

/-- The month counted from March, March being 4 and February 15. -/
def marchMonth (m : ℕ) : ℕ :=
  if m < 3 then m + 13 else m + 1

theorem weekday_lt (y m d : ℕ) : weekday y m d < 7 :=
  Nat.mod_lt _ (by decide)

theorem isLeapYear_iff (y : ℕ) :
    isLeapYear y = true ↔ y % 4 = 0 ∧ (y % 100 ≠ 0 ∨ y % 400 = 0) := by
  simp [isLeapYear]

/-- The leap years below `y` number `⌈y/4⌉ - ⌈y/100⌉ + ⌈y/400⌉`. -/
theorem daysBeforeYear_closed (y : ℕ) :
    daysBeforeYear y + (y + 99) / 100 = 365 * y + (y + 3) / 4 + (y + 399) / 400 := by
  induction y with
  | zero => rfl
  | succ y ih =>
    simp only [daysBeforeYear, daysInYear]
    by_cases hleap : y % 4 = 0 ∧ (y % 100 ≠ 0 ∨ y % 400 = 0)
    · rw [if_pos ((isLeapYear_iff y).2 hleap)]
      omega
    · rw [if_neg (mt (isLeapYear_iff y).1 hleap)]
      omega

/-- The days up to the end of year `g`: the closed form counts the leap years up to `g`. -/
theorem daysBeforeYear_succ_closed (g : ℕ) :
    daysBeforeYear (g + 1) + g / 100 = 365 * g + g / 4 + g / 400 + 366 := by
  have h := daysBeforeYear_closed (g + 1)
  omega

/-- Months from March: `⌊306 (m + 1) / 10⌋` steps through the month lengths 31, 30, 31, 30, 31,
31, 30, 31, 30, 31, and the leap day lies before them. -/
theorem daysBeforeMonth_of_three_le {m : ℕ} (y : ℕ) (h3 : 3 ≤ m) (h12 : m ≤ 12) :
    daysBeforeMonth y m + 428 = 306 * (m + 1) / 10 + daysInYear y := by
  unfold daysInYear
  split <;> interval_cases m <;> simp_all [daysBeforeMonth, daysInMonth]

/-- January and February, as months 14 and 15 of the previous March year. -/
theorem daysBeforeMonth_of_lt_three {m : ℕ} (y : ℕ) (h1 : 1 ≤ m) (h3 : m < 3) :
    daysBeforeMonth y m + 428 = 306 * (m + 13) / 10 := by
  interval_cases m <;> simp [daysBeforeMonth, daysInMonth]

/-- The March-based closed form of the day count. -/
theorem dayNumber_march {y m d : ℕ} (h : IsDate y m d) (hy : m < 3 → 1 ≤ y) :
    dayNumber y m d + 63 + marchYear y m / 100 =
      365 * marchYear y m + marchYear y m / 4 + marchYear y m / 400 +
        306 * marchMonth m / 10 + d := by
  obtain ⟨hm1, hm12, hd1, -⟩ := h
  unfold dayNumber marchYear marchMonth
  by_cases hm : m < 3
  · -- the date lies in March year `y - 1`, which ends with the days before year `y`
    obtain ⟨g, rfl⟩ : ∃ g, y = g + 1 := ⟨y - 1, by omega⟩
    have hyear := daysBeforeYear_succ_closed g
    have hmonth := daysBeforeMonth_of_lt_three (g + 1) hm1 hm
    simp only [hm, if_true, Nat.add_sub_cancel]
    omega
  · have hyear := daysBeforeYear_succ_closed y
    have hmonth := daysBeforeMonth_of_three_le y (by omega) hm12
    have hsucc : daysBeforeYear (y + 1) = daysBeforeYear y + daysInYear y := rfl
    simp only [hm, if_false]
    omega

/-! ## Day counts from an epoch, days of the year and ISO weeks -/

/-- The days from 1970-01-01, the Unix epoch, to a date. -/
def daysFromCivil (y m d : ℕ) : ℤ :=
  (dayNumber y m d : ℤ) - dayNumber 1970 1 1

/-- The day of the year of a date, 0 for January 1. -/
def dayOfYear (y m d : ℕ) : ℕ :=
  daysBeforeMonth y m + (d - 1)

/-- The ISO weekday of the day numbered `n`, 1 for Monday to 7 for Sunday. -/
def isoWeekday (n : ℕ) : ℕ :=
  (n + 5) % 7 + 1

/-- The Monday that starts week 1 of ISO year `y`: the Monday of the week of January 4. -/
def isoWeekOneMonday (y : ℕ) : ℕ :=
  dayNumber y 1 4 + 1 - isoWeekday (dayNumber y 1 4)

/-- The weeks of ISO year `y`. -/
def isoWeeksInYear (y : ℕ) : ℕ :=
  (isoWeekOneMonday (y + 1) - isoWeekOneMonday y) / 7

/-- The day numbered `n` lies in week `w` of ISO year `y`: weeks start on Monday, and week 1 is
the one that holds January 4. -/
def IsIsoWeek (n y w : ℕ) : Prop :=
  isoWeekOneMonday y ≤ n ∧ n < isoWeekOneMonday (y + 1) ∧ w = (n - isoWeekOneMonday y) / 7 + 1

instance (n y w : ℕ) : Decidable (IsIsoWeek n y w) :=
  inferInstanceAs (Decidable (_ ∧ _ ∧ _))

/-- The days before a year in closed form, which evaluates in a few operations. -/
theorem daysBeforeYear_eq (y : ℕ) :
    daysBeforeYear y = 365 * y + (y + 3) / 4 + (y + 399) / 400 - (y + 99) / 100 := by
  have h := daysBeforeYear_closed y
  omega

theorem daysInMonth_le (y m : ℕ) : daysInMonth y m ≤ 31 := by
  unfold daysInMonth
  split <;> (try split) <;> omega

theorem daysInYear_bounds (y : ℕ) : 365 ≤ daysInYear y ∧ daysInYear y ≤ 366 := by
  unfold daysInYear
  split <;> omega

theorem dayNumber_eq_add_dayOfYear (y m d : ℕ) : dayNumber y m d = daysBeforeYear y + dayOfYear y m d := by
  unfold dayNumber dayOfYear
  omega

/-- A date lies within its year. -/
theorem dayOfYear_lt {y m d : ℕ} (h : IsDate y m d) : dayOfYear y m d < daysInYear y := by
  obtain ⟨hm1, hm12, hd1, hdm⟩ := h
  unfold dayOfYear daysInYear
  unfold daysInMonth at hdm
  split <;> interval_cases m <;> simp_all [daysBeforeMonth, daysInMonth] <;> omega

/-- Week 1 starts three days after the last day of the year before at the latest, and three
days before it at the earliest: `isoWeekOneMonday y = daysBeforeYear y + 3 - (daysBeforeYear y + 1) % 7`. -/
theorem isoWeekOneMonday_add (y : ℕ) :
    isoWeekOneMonday y + (daysBeforeYear y + 1) % 7 = daysBeforeYear y + 3 := by
  simp only [isoWeekOneMonday, isoWeekday, dayNumber, daysBeforeMonth]
  omega

/-- Week 1 starts on a Monday. -/
theorem isoWeekday_isoWeekOneMonday (y : ℕ) : (isoWeekOneMonday y + 5) % 7 = 0 := by
  have h := isoWeekOneMonday_add y
  omega

/-- The week number of ISO 8601's rule counts the Mondays from week 1 of the year to the day,
that one included. -/
theorem ordinalWeek_eq {y n : ℕ} (hn : daysBeforeYear y ≤ n) :
    (n - daysBeforeYear y + 1 + 10 - isoWeekday n) / 7 = (n + 7 - isoWeekOneMonday y) / 7 := by
  have h := isoWeekOneMonday_add y
  unfold isoWeekday
  omega

/-- The ISO week of a day of year `y` from its day of the year and its ISO weekday, by the rule
of ISO 8601: `w = (ordinal - weekday + 10) / 7` with a 1-based ordinal; a week 0 is the last
week of the year before, and a week past the last of the year is week 1 of the next. -/
theorem isIsoWeek_of_ordinal {y n : ℕ} (hy : 1 ≤ y) (hn : daysBeforeYear y ≤ n)
    (hn' : n < daysBeforeYear (y + 1)) :
    let w := (n - daysBeforeYear y + 1 + 10 - isoWeekday n) / 7
    (w = 0 → IsIsoWeek n (y - 1) (isoWeeksInYear (y - 1))) ∧
      (1 ≤ w → w ≤ isoWeeksInYear y → IsIsoWeek n y w) ∧
      (isoWeeksInYear y < w → IsIsoWeek n (y + 1) 1) := by
  obtain ⟨x, rfl⟩ : ∃ x, y = x + 1 := ⟨y - 1, by omega⟩
  intro w
  have hw : w = (n + 7 - isoWeekOneMonday (x + 1)) / 7 := ordinalWeek_eq hn
  -- the Mondays of week 1 of the year before, the year and the year after, each within three
  -- days of its January 1
  have hprev := isoWeekOneMonday_add x
  have hcur := isoWeekOneMonday_add (x + 1)
  have hnext := isoWeekOneMonday_add (x + 1 + 1)
  have hmon₀ := isoWeekday_isoWeekOneMonday x
  have hmon₁ := isoWeekday_isoWeekOneMonday (x + 1)
  have hafter := isoWeekOneMonday_add (x + 1 + 1 + 1)
  have hmon₂ := isoWeekday_isoWeekOneMonday (x + 1 + 1)
  have hlen₀ := daysInYear_bounds x
  have hlen₁ := daysInYear_bounds (x + 1)
  have hlen₂ := daysInYear_bounds (x + 1 + 1)
  have hJ₁ : daysBeforeYear (x + 1) = daysBeforeYear x + daysInYear x := rfl
  have hJ₂ : daysBeforeYear (x + 1 + 1) = daysBeforeYear (x + 1) + daysInYear (x + 1) := rfl
  have hJ₃ : daysBeforeYear (x + 1 + 1 + 1) = daysBeforeYear (x + 1 + 1) + daysInYear (x + 1 + 1) :=
    rfl
  simp only [IsIsoWeek, isoWeeksInYear, Nat.add_sub_cancel]
  refine ⟨fun h0 => ⟨?_, ?_, ?_⟩, fun h1 hle => ⟨?_, ?_, ?_⟩, fun hgt => ⟨?_, ?_, ?_⟩⟩ <;> omega

end Rsyslog.Common
