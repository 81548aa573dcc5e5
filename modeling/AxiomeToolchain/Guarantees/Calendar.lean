import AxiomeToolchain.Source.Time

/-!
# Calendar conversion

For every second from 1970 on whose year fits in an int, time_to_tm returns the
date and the time of day of that second. The calendar is the one of
`Library.Gregorian`, which knows neither loop.
-/

set_option autoImplicit false

namespace AxiomeToolchain.Guarantees.Calendar
open AxiomeToolchain.Library.CInt
open AxiomeToolchain.Library.Gregorian
open AxiomeToolchain.Source.Time

def gregorianYear (tm : Tm) : Int := tm.year + 1900

/-- Months of the calendar count from 1, `tm_mon` from 0. -/
def gregorianMonth (tm : Tm) : Nat := tm.mon.toNat + 1

def dateNumber (tm : Tm) : Int := dayNumber (gregorianYear tm) (gregorianMonth tm) tm.mday

/-- Seconds from the start of 1970-01-01 to the date and time of `tm`. -/
def seconds (tm : Tm) : Int := 86400 * dateNumber tm + tm.hour * 3600 + tm.min * 60 + tm.sec

structure ValidTime (tm : Tm) : Prop where
  sec : 0 ≤ tm.sec ∧ tm.sec ≤ 59
  min : 0 ≤ tm.min ∧ tm.min ≤ 59
  hour : 0 ≤ tm.hour ∧ tm.hour ≤ 23

structure ValidDate (tm : Tm) : Prop where
  mon : 0 ≤ tm.mon ∧ tm.mon ≤ 11
  mday : 1 ≤ tm.mday ∧ tm.mday ≤ monthLength (gregorianYear tm) (gregorianMonth tm)
  yday : tm.yday = dateNumber tm - dayNumber (gregorianYear tm) 1 1
  wday : tm.wday = weekday (gregorianYear tm) (gregorianMonth tm) tm.mday

variable {t year : Int}

/-- The fields of the time of day. -/
theorem timeOfDay (nonneg : 0 ≤ t) :
    wrapInt ((t.tmod 86400).tdiv 3600) = t % 86400 / 3600 ∧
      wrapInt (((t.tmod 86400).tmod 3600).tdiv 60) = t % 3600 / 60 ∧
      wrapInt (((t.tmod 86400).tmod 3600).tmod 60) = t % 60 := by
  rw [Int.tmod_eq_emod_of_nonneg nonneg,
    Int.tmod_eq_emod_of_nonneg (by omega : (0 : Int) ≤ t % 86400),
    Int.tdiv_eq_ediv_of_nonneg (by omega), Int.tdiv_eq_ediv_of_nonneg (by omega),
    Int.tmod_eq_emod_of_nonneg (by omega)]
  refine ⟨?_, ?_, ?_⟩
  · rw [wrapInt_of_range (by omega) (by omega)]
  · rw [wrapInt_of_range (by omega) (by omega)]
    omega
  · rw [wrapInt_of_range (by omega) (by omega)]
    omega

/-- The date of a day of `year`, once the year loop has found the year. -/
theorem date_of_day (year days : Int) (low : yearStart year ≤ days)
    (high : days < yearStart (year + 1)) :
    ∃ k : Nat, k < 12 ∧ ∃ left : Int,
      monthLoop (monthDays (isLeap year)) 0 (days - yearStart year) = ((k : Int), left) ∧
        0 ≤ left ∧ left < monthLength year (k + 1) ∧ dayNumber year (k + 1) (left + 1) = days := by
  have inside : days - yearStart year < (monthLengths year 12).sum := by
    rw [monthLengths_sum]
    have next := yearStart_succ year
    omega
  obtain ⟨k, length, member, run, left_nonneg, left_lt⟩ :=
    monthLoop_eq (monthLengths year 12) 0 (days - yearStart year) (by omega) inside
  obtain ⟨small, rfl⟩ := monthLengths_get member
  rw [monthLengths_take year (by omega)] at run left_nonneg left_lt
  refine ⟨k, small, _, ?_, left_nonneg, left_lt, ?_⟩
  · rw [monthDays_eq, run, Int.zero_add]
  · rw [dayNumber, Nat.add_sub_cancel]
    omega

theorem monthLength_le (year : Int) (month : Nat) : monthLength year month ≤ 31 := by
  unfold monthLength
  split_ifs <;> decide

theorem yearLength_le (year : Int) : yearLength year ≤ 366 := by
  unfold yearLength
  split <;> decide

/-- The year loop, started in 1970, finds the year. -/
theorem yearLoop_from_1970 (nonneg : 0 ≤ t) (inYear : InYear t year) (small : year ≤ intMax) :
    1970 ≤ year ∧ yearLoop ((t / 86400).toNat + 1) 1970 (t / 86400) =
      some (year, t / 86400 - yearStart year) := by
  obtain ⟨after, before⟩ := inYear
  have epoch := yearStart_epoch
  refine ⟨year_unique (t / 86400) (by omega) (by omega), ?_⟩
  rw [yearLoop_eq year _ _ _ (by omega) (by decide) (by omega) (by omega) (by omega) small,
    epoch, Int.zero_add]

/-- The record that time_to_tm fills in. -/
theorem timeToTm_eq (nonneg : 0 ≤ t) (inYear : InYear t year) (small : year ≤ intMax) :
    ∃ k : Nat, k < 12 ∧ ∃ left : Int, 0 ≤ left ∧ left < monthLength year (k + 1) ∧
      dayNumber year (k + 1) (left + 1) = t / 86400 ∧
      timeToTm t = some
        { sec := t % 60, min := t % 3600 / 60, hour := t % 86400 / 3600, mday := left + 1,
          mon := k, year := year - 1900, wday := (t / 86400 + 4) % 7,
          yday := t / 86400 - yearStart year, isdst := 0 } := by
  obtain ⟨modern, years⟩ := yearLoop_from_1970 nonneg inYear small
  obtain ⟨after, before⟩ := inYear
  obtain ⟨k, month_lt, left, months, left_nonneg, left_lt, number⟩ :=
    date_of_day year (t / 86400) (by omega) (by omega)
  refine ⟨k, month_lt, left, left_nonneg, left_lt, number, ?_⟩
  have row : isLeapInt year = isLeap year := isLeapInt_eq (by omega)
  have fits : year ≤ 2147483647 := small
  have short := monthLength_le year (k + 1)
  have length := yearLength_le year
  have next := yearStart_succ year
  obtain ⟨hour_eq, min_eq, sec_eq⟩ := timeOfDay nonneg
  have weekday_eq : wrapInt ((t / 86400 + 4).tmod 7) = (t / 86400 + 4) % 7 := by
    rw [Int.tmod_eq_emod_of_nonneg (by omega), wrapInt_of_range (by omega) (by omega)]
  simp only [timeToTm, hour_eq, min_eq, sec_eq, Int.tdiv_eq_ediv_of_nonneg nonneg, weekday_eq,
    years, Option.map_some, row, months]
  rw [wrapInt_of_range (x := left) (by omega) (by omega), wrapInt_of_range (by omega) (by omega),
    wrapInt_of_range (by omega) (by omega), wrapInt_of_range (by omega) (by omega)]

/-- Every second from 1970 on, in a year that fits in an int, is converted to
its date and time of day; the day of the year and of the week are those of the
date, and the calendar formula gives the second back. -/
theorem conversion_exact (t year : Int) (nonneg : 0 ≤ t) (inYear : InYear t year)
    (small : year ≤ intMax) :
    ∃ tm, timeToTm t = some tm ∧ localtime (some t) = some (some tm) ∧
      gmtime (some t) = some (some tm) ∧
      gregorianYear tm = year ∧ ValidTime tm ∧ ValidDate tm ∧ seconds tm = t := by
  obtain ⟨k, month_lt, left, left_nonneg, left_lt, number, converted⟩ :=
    timeToTm_eq nonneg inYear small
  have local_eq : localtime (some t) = (timeToTm t).map some := rfl
  refine ⟨_, converted, by rw [local_eq, converted]; rfl, by rw [gmtime, local_eq, converted]; rfl,
    Int.sub_add_cancel year 1900, ?_, ?_, ?_⟩
  · constructor <;> constructor <;> dsimp only <;> omega
  · have start : dayNumber year 1 1 = yearStart year := by simp [dayNumber, monthLengths]
    refine ⟨?_, ?_, ?_, ?_⟩
    · dsimp only
      omega
    · simp only [gregorianYear, gregorianMonth, Int.sub_add_cancel, Int.toNat_natCast]
      omega
    · simp only [gregorianYear, gregorianMonth, dateNumber, Int.sub_add_cancel, Int.toNat_natCast]
      rw [number, start]
    · simp only [gregorianYear, gregorianMonth, weekday, Int.sub_add_cancel, Int.toNat_natCast]
      rw [number]
  · simp only [seconds, dateNumber, gregorianYear, gregorianMonth, Int.sub_add_cancel,
      Int.toNat_natCast]
    rw [number]
    omega

/-- 29 February 2000, noon. -/
theorem conversion_exact_leap_day :
    ∃ tm, timeToTm 951825600 = some tm ∧ localtime (some 951825600) = some (some tm) ∧
      gmtime (some 951825600) = some (some tm) ∧ gregorianYear tm = 2000 ∧ ValidTime tm ∧
      ValidDate tm ∧ seconds tm = 951825600 :=
  conversion_exact 951825600 2000 (by decide) ⟨by decide, by decide⟩ (by decide)

example : (timeToTm 951825600).map (fun tm => (tm.mon, tm.mday, tm.hour)) = some (1, 29, 12) := by
  decide

end AxiomeToolchain.Guarantees.Calendar
