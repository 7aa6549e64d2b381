import Rsyslog.Common.Calendar
import Rsyslog.Runtime.DatetimeFormat

/-!
# Unix time, day of the year and ISO week (`runtime/datetime.c`)

`syslogTime2time_t` turns a timestamp into Unix time from a table, `yearInSecs`, of the last
second of each year from 1967 to 2099, the days of the months before the timestamp's, a leap
day and the offset. `getOrdinal` subtracts the table entry of the year before from that time,
each shifted by an offset, and divides by the seconds of a day; `getISOWeek` takes the ISO week
from that day of the year and the weekday, with a table, `weeksInYear`, of the ISO weeks of the
years from 1969 to 2100.

Both tables agree with the calendar of `Rsyslog.Common.Calendar` (`yearInSecs_eq`,
`weeksInYear_eq`), and `syslogTime2time_t` is the Unix time of every date from 1970 to 2100,
read with the offset fields whatever the mode. `getOrdinal` is off: the entry it subtracts is
the last second of the year before, not its end, so the last second of a day counts as the
next day, and a `+` offset is subtracted twice and the entry shifted by one second. Wherever
`getOrdinal` gives the day of the year, `getISOWeek` gives the ISO week.
-/

namespace Rsyslog

open Rsyslog.Common

/-- `yearInSec_startYear`, the year of the first entry of `yearInSecs`. -/
def yearInSec_startYear : ℤ := 1967

/-- `yearInSecs`: the Unix time of December 31, 23:59:59 UTC, of each year from 1967 to 2099. -/
def yearInSecs : List ℤ := [
    -63158401, -31536001, -1, 31535999, 63071999, 94694399, 126230399, 157766399,
    189302399, 220924799, 252460799, 283996799, 315532799, 347155199, 378691199, 410227199,
    441763199, 473385599, 504921599, 536457599, 567993599, 599615999, 631151999, 662687999,
    694223999, 725846399, 757382399, 788918399, 820454399, 852076799, 883612799, 915148799,
    946684799, 978307199, 1009843199, 1041379199, 1072915199, 1104537599, 1136073599, 1167609599,
    1199145599, 1230767999, 1262303999, 1293839999, 1325375999, 1356998399, 1388534399, 1420070399,
    1451606399, 1483228799, 1514764799, 1546300799, 1577836799, 1609459199, 1640995199, 1672531199,
    1704067199, 1735689599, 1767225599, 1798761599, 1830297599, 1861919999, 1893455999, 1924991999,
    1956527999, 1988150399, 2019686399, 2051222399, 2082758399, 2114380799, 2145916799, 2177452799,
    2208988799, 2240611199, 2272147199, 2303683199, 2335219199, 2366841599, 2398377599, 2429913599,
    2461449599, 2493071999, 2524607999, 2556143999, 2587679999, 2619302399, 2650838399, 2682374399,
    2713910399, 2745532799, 2777068799, 2808604799, 2840140799, 2871763199, 2903299199, 2934835199,
    2966371199, 2997993599, 3029529599, 3061065599, 3092601599, 3124223999, 3155759999, 3187295999,
    3218831999, 3250454399, 3281990399, 3313526399, 3345062399, 3376684799, 3408220799, 3439756799,
    3471292799, 3502915199, 3534451199, 3565987199, 3597523199, 3629145599, 3660681599, 3692217599,
    3723753599, 3755375999, 3786911999, 3818447999, 3849983999, 3881606399, 3913142399, 3944678399,
    3976214399, 4007836799, 4039372799, 4070908799, 4102444799
  ]

/-- `weeksInYear`: the ISO weeks of each year from 1969 to 2100. -/
def weeksInYear : List ℤ := [
    52, 53, 52, 52, 52, 52, 52, 53, 52, 52, 52, 52, 53, 52, 52, 52, 52, 52, 53, 52, 52, 52,
    52, 53, 52, 52, 52, 52, 52, 53, 52, 52, 52, 52, 52, 53, 52, 52, 52, 52, 53, 52, 52, 52,
    52, 52, 53, 52, 52, 52, 52, 53, 52, 52, 52, 52, 52, 53, 52, 52, 52, 52, 52, 53, 52, 52,
    52, 52, 53, 52, 52, 52, 52, 52, 53, 52, 52, 52, 52, 53, 52, 52, 52, 52, 52, 53, 52, 52,
    52, 52, 52, 53, 52, 52, 52, 52, 53, 52, 52, 52, 52, 52, 53, 52, 52, 52, 52, 53, 52, 52,
    52, 52, 52, 53, 52, 52, 52, 52, 52, 53, 52, 52, 52, 52, 53, 52, 52, 52, 52, 52, 53, 52
  ]

/-- `t[i]` for a table `t`; none where `i` lies outside it, a read C leaves undefined. -/
def tableAt (t : List ℤ) (i : ℤ) : Option ℤ :=
  if 0 ≤ i then t[i.toNat]? else none

/-- The `switch (ts->month)` of `syslogTime2time_t`: the days of the months before `month` in a
year without a leap day, 0 for a month outside 1..12. -/
def monthInDays (month : ℤ) : ℤ :=
  match month with
  | 1 => 0
  | 2 => 31
  | 3 => 59
  | 4 => 90
  | 5 => 120
  | 6 => 151
  | 7 => 181
  | 8 => 212
  | 9 => 243
  | 10 => 273
  | 11 => 304
  | 12 => 334
  | _ => 0

/-- `syslogTime2time_t(ts)`: the Unix time of a timestamp, 0 for a year outside 1970..2100.
`char` fields are read as signed. The year check keeps the index into `yearInSecs` within it;
`time_t` and `long` are 64 bits wide, which no value here leaves. -/
def syslogTime2time_t (ts : SyslogTime) : ℤ :=
  if ts.year.toInt < 1970 ∨ ts.year.toInt > 2100 then 0
  else
    let MonthInDays := monthInDays (charInt ts.month)
    -- adjust for leap years
    let MonthInDays :=
      if (ts.year.toInt.tmod 100 ≠ 0 ∧ ts.year.toInt.tmod 4 = 0) ∨ ts.year.toInt = 2000 then
        if charInt ts.month > 2 then MonthInDays + 1 else MonthInDays
      else MonthInDays
    let NumberOfYears := ts.year.toInt - yearInSec_startYear - 1
    let NumberOfDays := MonthInDays + charInt ts.day - 1
    let TimeInUnixFormat := (yearInSecs.getD NumberOfYears.toNat 0 + 1) + NumberOfDays * 86400
    let TimeInUnixFormat := TimeInUnixFormat + charInt ts.hour * 60 * 60
    let TimeInUnixFormat := TimeInUnixFormat + charInt ts.minute * 60
    let TimeInUnixFormat := TimeInUnixFormat + charInt ts.second
    let utcOffset := charInt ts.OffsetHour * 3600 + charInt ts.OffsetMinute * 60
    let utcOffset := if ts.OffsetMode = '+'.toUInt8 then utcOffset * -1 else utcOffset
    TimeInUnixFormat + utcOffset

/-- `getOrdinal(ts)`, meant as the day of the year from 0, 0 for a year outside 1970..2100. -/
def getOrdinal (ts : SyslogTime) : ℤ :=
  if ts.year.toInt < 1970 ∨ ts.year.toInt > 2100 then 0
  else
    let thistime := syslogTime2time_t ts
    let previousyears := yearInSecs.getD (ts.year.toInt - yearInSec_startYear - 1).toNat 0
    -- adjust previous years to match UTC offset
    let utcOffset := charInt ts.OffsetHour * 3600 + charInt ts.OffsetMinute * 60
    let utcOffset := if ts.OffsetMode = '+'.toUInt8 then utcOffset + -1 else utcOffset
    let previousyears := previousyears + utcOffset
    let seconds_into_year := thistime - previousyears
    seconds_into_year.tdiv 86400

/-- `getISOWeek(ts, &year)`: the week and the year it stores; none where a read of
`weeksInYear` falls outside the table. -/
def getISOWeek (ts : SyslogTime) : Option (ℤ × ℤ) :=
  let curYearDay := getOrdinal ts
  let curDow := getWeekdayNbr ts
  -- map from 0 - Sunday, 1, Monday to 1, Monday, 7 - Sunday
  let curDow := if curDow = 0 then 7 else curDow
  -- make ordinal in range 1-366
  let curYearDay := curYearDay + 1
  let weekNum := (10 + curYearDay - curDow).tdiv 7
  if weekNum = 0 then
    -- this is actually W52 or W53 of previous year
    (tableAt weeksInYear (ts.year.toInt - 1 - 1969)).map fun weeks => (weeks, ts.year.toInt - 1)
  else
    match tableAt weeksInYear (ts.year.toInt - 1969) with
    | none => none
    | some weeks =>
      -- this is actually W01 of next year
      if weekNum > weeks then some (1, ts.year.toInt + 1) else some (weekNum, ts.year.toInt)

/-! ## The tables -/

/-- Each entry of `yearInSecs` is the last second of its year: one second before the next
year begins. -/
theorem yearInSecs_eq : ∀ i : Fin 133,
    yearInSecs.getD i 0 = 86400 * daysFromCivil (1968 + i) 1 1 - 1 := by
  simp only [daysFromCivil, dayNumber, daysBeforeMonth, daysBeforeYear_eq]
  decide +kernel

/-- Each entry of `weeksInYear` is the count of ISO weeks of its year. -/
theorem weeksInYear_eq : ∀ i : Fin 132, weeksInYear.getD i 0 = isoWeeksInYear (1969 + i) := by
  simp only [isoWeeksInYear, isoWeekOneMonday, isoWeekday, dayNumber, daysBeforeMonth,
    daysBeforeYear_eq]
  decide +kernel

/-- The entry of the year before `y` is the second before `y` begins. -/
theorem yearInSecs_getD {y : ℕ} (hyear : 1970 ≤ y ∧ y ≤ 2100) :
    yearInSecs.getD ((y : ℤ) - yearInSec_startYear - 1).toNat 0 = 86400 * daysFromCivil y 1 1 - 1 := by
  have h := yearInSecs_eq ⟨y - 1968, by omega⟩
  have hi : ((y : ℤ) - yearInSec_startYear - 1).toNat = y - 1968 := by
    simp only [yearInSec_startYear]
    omega
  simp only [Nat.add_sub_cancel' (by omega : 1968 ≤ y)] at h
  rw [hi, h]

theorem tableAt_weeksInYear {y : ℕ} (hyear : 1969 ≤ y ∧ y ≤ 2100) :
    tableAt weeksInYear ((y : ℤ) - 1969) = some (isoWeeksInYear y : ℤ) := by
  have h := weeksInYear_eq ⟨y - 1969, by omega⟩
  simp only [Nat.add_sub_cancel' hyear.1] at h
  have hi : ((y : ℤ) - 1969).toNat = y - 1969 := by omega
  rw [tableAt, if_pos (by omega), hi, List.getElem?_eq_getElem (by simp [weeksInYear]; omega)]
  rw [List.getD_eq_getElem?_getD, List.getElem?_eq_getElem (by simp [weeksInYear]; omega),
    Option.getD_some] at h
  rw [h]

/-! ## Unix time -/

/-- The leap test of `syslogTime2time_t`, `(year % 100 != 0 && year % 4 == 0) || year == 2000`,
is the Gregorian one from 1901 to 2399. -/
theorem leapTest_iff {y : ℕ} (hyear : 1970 ≤ y ∧ y ≤ 2100) :
    (((y : ℤ).tmod 100 ≠ 0 ∧ (y : ℤ).tmod 4 = 0) ∨ (y : ℤ) = 2000) ↔ isLeapYear y = true := by
  rw [isLeapYear_iff, Int.tmod_eq_emod_of_nonneg (by omega), Int.tmod_eq_emod_of_nonneg (by omega)]
  omega

/-- The `switch` on the month and the leap day after February give the days of the months
before. -/
theorem monthInDays_add_leap (y : ℕ) {m : ℕ} (hm : 1 ≤ m ∧ m ≤ 12) :
    monthInDays m + (if isLeapYear y = true ∧ 2 < m then 1 else 0) = daysBeforeMonth y m := by
  obtain ⟨hm1, hm12⟩ := hm
  interval_cases m <;> simp [monthInDays, daysBeforeMonth, daysInMonth] <;> split <;> simp_all

/-- The days from the epoch to a date are those to the year's January 1 and its day of the
year. -/
theorem daysFromCivil_eq (y m d : ℕ) :
    daysFromCivil y m d = daysFromCivil y 1 1 + dayOfYear y m d := by
  have hjan : dayOfYear y 1 1 = 0 := rfl
  unfold daysFromCivil
  rw [dayNumber_eq_add_dayOfYear y m d, dayNumber_eq_add_dayOfYear y 1 1, hjan]
  push_cast
  ring

/-- `syslogTime2time_t` on a date from 1970 to 2100 is its Unix time with the time of day and the
offset added, the offset fields read whatever the mode and subtracted for `+`. -/
theorem syslogTime2time_t_date (ts : SyslogTime) {y m d : ℕ} (hy : ts.year.toInt = y)
    (hm : ts.month.toNat = m) (hd : ts.day.toNat = d) (hyear : 1970 ≤ y ∧ y ≤ 2100)
    (hdate : IsDate y m d) :
    syslogTime2time_t ts = 86400 * daysFromCivil y m d + charInt ts.hour * 3600 +
      charInt ts.minute * 60 + charInt ts.second +
      (if ts.OffsetMode = '+'.toUInt8 then -1 else 1) *
        (charInt ts.OffsetHour * 3600 + charInt ts.OffsetMinute * 60) := by
  obtain ⟨hm1, hm12, hd1, hdm⟩ := hdate
  have hmonth : charInt ts.month = m := by rw [charInt_of_lt (by omega), hm]
  have hday : charInt ts.day = d := by
    rw [charInt_of_lt (by have := daysInMonth_le y m; omega), hd]
  -- the month's days with the leap day, as `daysBeforeMonth`
  have hdays : (if (((y : ℤ).tmod 100 ≠ 0 ∧ (y : ℤ).tmod 4 = 0) ∨ (y : ℤ) = 2000) then
      (if (m : ℤ) > 2 then monthInDays m + 1 else monthInDays m) else monthInDays m) =
      daysBeforeMonth y m := by
    rw [← monthInDays_add_leap y ⟨hm1, hm12⟩]
    by_cases hleap : isLeapYear y = true
    · rw [if_pos ((leapTest_iff hyear).2 hleap)]
      split <;> simp_all
    · rw [if_neg (mt (leapTest_iff hyear).1 hleap)]
      simp [hleap]
  have htable := yearInSecs_getD hyear
  have hcivil := daysFromCivil_eq y m d
  unfold syslogTime2time_t
  rw [if_neg (by rw [hy]; omega)]
  simp only [hy, hmonth, hday, hdays, htable, hcivil, dayOfYear]
  split <;> push_cast [Nat.cast_sub hd1] <;> ring

/-- `syslogTime2time_t` is the Unix time of every timestamp from 1970 to 2100 with its offset,
the offset added for every mode but `+`. -/
theorem syslogTime2time_t_eq (ts : SyslogTime) {y m d : ℕ} (hy : ts.year.toInt = y)
    (hm : ts.month.toNat = m) (hd : ts.day.toNat = d) (hyear : 1970 ≤ y ∧ y ≤ 2100)
    (hdate : IsDate y m d) (hhour : ts.hour.toNat ≤ 23) (hminute : ts.minute.toNat ≤ 59)
    (hsecond : ts.second.toNat ≤ 59)
    (hoffset : ts.OffsetHour.toNat ≤ 23 ∧ ts.OffsetMinute.toNat ≤ 59) :
    syslogTime2time_t ts = 86400 * daysFromCivil y m d + 3600 * ts.hour.toNat +
      60 * ts.minute.toNat + ts.second.toNat -
      (if ts.OffsetMode = '+'.toUInt8 then 1 else -1) *
        (3600 * ts.OffsetHour.toNat + 60 * ts.OffsetMinute.toNat) := by
  rw [syslogTime2time_t_date ts hy hm hd hyear hdate, charInt_of_lt (by omega),
    charInt_of_lt (by omega), charInt_of_lt (by omega), charInt_of_lt (by omega),
    charInt_of_lt (by omega)]
  split <;> ring

theorem syslogTime2time_t_eq_leapDay :
    syslogTime2time_t { SyslogTime.zero with
        year := 2024, month := 2, day := 29, hour := 13, minute := 5, second := 9
        OffsetMode := '-'.toUInt8, OffsetHour := 5, OffsetMinute := 30 } =
      86400 * daysFromCivil 2024 2 29 + 3600 * 13 + 60 * 5 + 9 - (-1) * (3600 * 5 + 60 * 30) :=
  syslogTime2time_t_eq _ (y := 2024) (m := 2) (d := 29) rfl rfl rfl (by decide) (by decide)
    (by decide) (by decide) (by decide) (by decide)

/-- A `Z` timestamp whose offset fields are not 0 is shifted by them, as a `-` one would be:
1970-01-01T00:00:00 with mode `Z` and `OffsetHour` 1 gives 3600, not the epoch. -/
theorem syslogTime2time_t_zuluOffset :
    syslogTime2time_t { SyslogTime.zero with
        year := 1970, month := 1, day := 1, OffsetMode := 'Z'.toUInt8, OffsetHour := 1 } = 3600 ∧
      daysFromCivil 1970 1 1 = 0 :=
  ⟨by decide, sub_self _⟩

/-! ## The day of the year -/

/-- `getOrdinal` of a date from 1970 to 2100: the seconds from the last second of the year
before, plus one second and twice the offset taken off for `+`, divided by the seconds of a
day. -/
theorem getOrdinal_date (ts : SyslogTime) {y m d : ℕ} (hy : ts.year.toInt = y)
    (hm : ts.month.toNat = m) (hd : ts.day.toNat = d) (hyear : 1970 ≤ y ∧ y ≤ 2100)
    (hdate : IsDate y m d) :
    getOrdinal ts = (1 + 86400 * (dayOfYear y m d : ℤ) + charInt ts.hour * 3600 +
      charInt ts.minute * 60 + charInt ts.second +
      (if ts.OffsetMode = '+'.toUInt8 then
        1 - 2 * (charInt ts.OffsetHour * 3600 + charInt ts.OffsetMinute * 60) else 0)).tdiv 86400 := by
  have hcivil := daysFromCivil_eq y m d
  unfold getOrdinal
  rw [if_neg (by rw [hy]; omega)]
  simp only [syslogTime2time_t_date ts hy hm hd hyear hdate, hy, yearInSecs_getD hyear, hcivil]
  refine congrArg (fun x => Int.tdiv x 86400) ?_
  split <;> ring

/-- Before the last second of a day, and with a mode other than `+`, `getOrdinal` is the day of
the year. -/
theorem getOrdinal_eq_dayOfYear (ts : SyslogTime) {y m d : ℕ} (hy : ts.year.toInt = y)
    (hm : ts.month.toNat = m) (hd : ts.day.toNat = d) (hyear : 1970 ≤ y ∧ y ≤ 2100)
    (hdate : IsDate y m d) (hhour : ts.hour.toNat ≤ 23) (hminute : ts.minute.toNat ≤ 59)
    (hsecond : ts.second.toNat ≤ 59)
    (hlast : ¬(ts.hour.toNat = 23 ∧ ts.minute.toNat = 59 ∧ ts.second.toNat = 59))
    (hmode : ts.OffsetMode ≠ '+'.toUInt8) :
    getOrdinal ts = dayOfYear y m d := by
  rw [getOrdinal_date ts hy hm hd hyear hdate, if_neg hmode, charInt_of_lt (by omega),
    charInt_of_lt (by omega), charInt_of_lt (by omega), Int.tdiv_eq_ediv_of_nonneg (by positivity)]
  omega

/-- The last second of a day counts as the next day, and a `+` offset as twice itself: on
2020-12-31T23:59:59Z, the last second of a leap year, `getOrdinal` gives 366, past the last
index of `daysInYear[366]`, and on 2020-01-02T00:30:00+01:00 it gives 0, January 1. -/
theorem getOrdinal_lastSecond_plusOffset :
    getOrdinal { SyslogTime.zero with
        year := 2020, month := 12, day := 31, hour := 23, minute := 59, second := 59
        OffsetMode := 'Z'.toUInt8 } = 366 ∧ dayOfYear 2020 12 31 = 365 ∧
      getOrdinal { SyslogTime.zero with
        year := 2020, month := 1, day := 2, minute := 30, OffsetMode := '+'.toUInt8
        OffsetHour := 1 } = 0 ∧ dayOfYear 2020 1 2 = 1 := by
  decide

/-! ## The ISO week -/

/-- `getWeekdayNbr` with Sunday moved from 0 to 7 is the ISO weekday, from 1970 to 2099. -/
theorem isoDow_eq (ts : SyslogTime) {y m d : ℕ} (hy : ts.year.toInt = y) (hm : ts.month.toNat = m)
    (hd : ts.day.toNat = d) (hyear : 1970 ≤ y ∧ y ≤ 2099) (hdate : IsDate y m d) :
    (if getWeekdayNbr ts = 0 then 7 else getWeekdayNbr ts) = isoWeekday (dayNumber y m d) := by
  have hwin : 1900 ≤ marchYear y m ∧ marchYear y m ≤ 2099 := by
    unfold marchYear
    split <;> omega
  rw [getWeekdayNbr_eq_weekday ts hy hm hd hdate hwin]
  unfold weekday isoWeekday
  split <;> omega

/-- Wherever `getOrdinal` gives the day of the year, `getISOWeek` gives the ISO week of the
date and its year, from 1970 to 2099. -/
theorem getISOWeek_of_getOrdinal (ts : SyslogTime) {y m d : ℕ} (hy : ts.year.toInt = y)
    (hm : ts.month.toNat = m) (hd : ts.day.toNat = d) (hyear : 1970 ≤ y ∧ y ≤ 2099)
    (hdate : IsDate y m d) (hord : getOrdinal ts = dayOfYear y m d) :
    ∃ Y w : ℕ, getISOWeek ts = some ((w : ℤ), (Y : ℤ)) ∧ IsIsoWeek (dayNumber y m d) Y w := by
  have hn := dayNumber_eq_add_dayOfYear y m d
  have hlt := dayOfYear_lt hdate
  have hJ : daysBeforeYear (y + 1) = daysBeforeYear y + daysInYear y := rfl
  obtain ⟨h0, hmid, hlate⟩ := isIsoWeek_of_ordinal (y := y) (n := dayNumber y m d) (by omega)
    (by omega) (by omega)
  -- the week number of the code is the one of ISO 8601's rule
  have hiso := isoDow_eq ts hy hm hd hyear hdate
  have hdow : isoWeekday (dayNumber y m d) ≤ 7 := by unfold isoWeekday; omega
  have hw : (10 + ((dayOfYear y m d : ℤ) + 1) - isoWeekday (dayNumber y m d)).tdiv 7 =
      ((dayNumber y m d - daysBeforeYear y + 1 + 10 - isoWeekday (dayNumber y m d)) / 7 : ℕ) := by
    rw [Int.tdiv_eq_ediv_of_nonneg (by omega)]
    omega
  generalize (dayNumber y m d - daysBeforeYear y + 1 + 10 - isoWeekday (dayNumber y m d)) / 7 = w
    at hw h0 hmid hlate
  have hweeks := tableAt_weeksInYear (y := y) (by omega)
  have hprev := tableAt_weeksInYear (y := y - 1) (by omega)
  rw [Nat.cast_sub (by omega), Nat.cast_one] at hprev
  unfold getISOWeek
  simp only [hord, hiso, hw, hy]
  by_cases hw0 : w = 0
  · -- week 0 is the last week of the year before
    refine ⟨y - 1, isoWeeksInYear (y - 1), ?_, h0 hw0⟩
    rw [if_pos (by exact_mod_cast hw0), hprev]
    simp [Nat.cast_sub (show 1 ≤ y by omega)]
  · rw [if_neg (by exact_mod_cast hw0), hweeks]
    dsimp only
    by_cases hgt : isoWeeksInYear y < w
    · -- past the last week of the year: week 1 of the next
      refine ⟨y + 1, 1, ?_, hlate hgt⟩
      rw [if_pos (by exact_mod_cast hgt)]
      simp
    · refine ⟨y, w, ?_, hmid (by omega) (by omega)⟩
      rw [if_neg (by exact_mod_cast hgt)]

/-- On the last second of a year whose December 31 lies in the year's last ISO week,
`getISOWeek` answers week 1 of the next year: on 2021-12-31T23:59:59Z, a Friday of week 52 of
2021, `getOrdinal` gives 365, a day past December 31, and `getISOWeek` gives week 1 of 2022. -/
theorem getISOWeek_lastSecond_nextYear :
    getISOWeek { SyslogTime.zero with
        year := 2021, month := 12, day := 31, hour := 23, minute := 59, second := 59
        OffsetMode := 'Z'.toUInt8 } = some (1, 2022) ∧
      IsIsoWeek (dayNumber 2021 12 31) 2021 52 := by
  refine ⟨by decide, ?_⟩
  simp only [IsIsoWeek, isoWeekOneMonday, isoWeekday, dayNumber, daysBeforeMonth, daysInMonth,
    daysBeforeYear_eq]
  decide

end Rsyslog
