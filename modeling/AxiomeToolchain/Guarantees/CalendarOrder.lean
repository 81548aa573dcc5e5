import AxiomeToolchain.Guarantees.Calendar

/-!
# Seconds and broken-down times are in one order

localtime turns a number into eight others. Between the seconds from 1970 on and
the valid dates with a time of day it is one to one and onto, and a second comes
before another exactly if year, month, day, hour, minute and second, compared in
this order, say so.
-/

set_option autoImplicit false

namespace AxiomeToolchain.Guarantees.CalendarOrder
open AxiomeToolchain.Library.CInt
open AxiomeToolchain.Library.Gregorian
open AxiomeToolchain.Source.Time
open AxiomeToolchain.Guarantees.Calendar

/-- The fields that tell two times apart, the most significant first. -/
def fields (tm : Tm) : List Int := [tm.year, tm.mon, tm.mday, tm.hour, tm.min, tm.sec]

/-- A valid record of a year from 1970 to the last that fits. -/
structure Civil (tm : Tm) : Prop where
  time : ValidTime tm
  date : ValidDate tm
  isdst : tm.isdst = 0
  year : 1970 ≤ gregorianYear tm ∧ gregorianYear tm ≤ intMax

/-- The seconds from 1970 to the end of the last year that fits. -/
def Convertible (t : Int) : Prop := 0 ≤ t ∧ t < 86400 * yearStart (intMax + 1)

variable {tm tm' : Tm} {s t : Int}

theorem Civil.isDate (civil : Civil tm) :
    IsDate (gregorianYear tm) (gregorianMonth tm) tm.mday := by
  have mon := civil.date.mon
  exact ⟨by unfold gregorianMonth; omega, civil.date.mday⟩

/-- Records in order have their dates and times in order. -/
theorem seconds_lt (civil : Civil tm) (civil' : Civil tm') (before : fields tm < fields tm') :
    seconds tm < seconds tm' := by
  obtain ⟨sec, min, hour⟩ := civil.time
  obtain ⟨sec', min', hour'⟩ := civil'.time
  have mon := civil.date.mon
  have mon' := civil'.date.mon
  simp only [fields, List.cons_lt_cons_iff, List.not_lt_nil, and_false, or_false] at before
  by_cases sameDay : tm.year = tm'.year ∧ tm.mon = tm'.mon ∧ tm.mday = tm'.mday
  · obtain ⟨year, mon, mday⟩ := sameDay
    have date : dateNumber tm = dateNumber tm' := by
      rw [dateNumber, dateNumber, gregorianYear, gregorianYear, gregorianMonth, gregorianMonth, year,
        mon, mday]
    unfold seconds
    omega
  · have date : dateNumber tm < dateNumber tm' := by
      apply dayNumber_lt civil.isDate civil'.isDate
      unfold gregorianYear gregorianMonth
      omega
    unfold seconds
    omega

/-- The fields and the date tell the whole record. -/
theorem eq_of_fields (civil : Civil tm) (civil' : Civil tm') (same : fields tm = fields tm') :
    tm = tm' := by
  simp only [fields, List.cons.injEq, and_true] at same
  obtain ⟨year, mon, mday, hour, min, sec⟩ := same
  have date : dateNumber tm = dateNumber tm' := by
    rw [dateNumber, dateNumber, gregorianYear, gregorianYear, gregorianMonth, gregorianMonth, year,
      mon, mday]
  have wday : tm.wday = tm'.wday := by
    rw [civil.date.wday, civil'.date.wday, gregorianYear, gregorianYear, gregorianMonth,
      gregorianMonth, year, mon, mday]
  have yday : tm.yday = tm'.yday := by
    rw [civil.date.yday, civil'.date.yday, date, gregorianYear, gregorianYear, year]
  have isdst : tm.isdst = tm'.isdst := civil.isdst.trans civil'.isdst.symm
  cases tm
  cases tm'
  simp_all

theorem seconds_lt_iff (civil : Civil tm) (civil' : Civil tm') :
    seconds tm < seconds tm' ↔ fields tm < fields tm' := by
  refine ⟨fun less => ?_, seconds_lt civil civil'⟩
  rcases lt_trichotomy (fields tm) (fields tm') with before | same | after
  · exact before
  · rw [eq_of_fields civil civil' same] at less
    exact absurd less (Int.lt_irrefl _)
  · exact absurd (seconds_lt civil' civil after) (Int.not_lt.mpr (Int.le_of_lt less))

theorem eq_of_seconds (civil : Civil tm) (civil' : Civil tm') (same : seconds tm = seconds tm') :
    tm = tm' := by
  rcases lt_trichotomy (fields tm) (fields tm') with before | fields_same | after
  · have less := seconds_lt civil civil' before
    omega
  · exact eq_of_fields civil civil' fields_same
  · have less := seconds_lt civil' civil after
    omega

/-- localtime of a second in range. -/
theorem localtime_civil (convertible : Convertible t) :
    ∃ tm, localtime (some t) = some (some tm) ∧ Civil tm ∧ seconds tm = t := by
  obtain ⟨nonneg, last⟩ := convertible
  obtain ⟨year, low, high⟩ := exists_year (t / 86400) (by omega)
  have small : year ≤ intMax := year_unique (t / 86400) low (by omega)
  have inYear : InYear t year := ⟨by omega, by omega⟩
  have modern := (yearLoop_from_1970 nonneg inYear small).1
  obtain ⟨k, month_lt, left, left_nonneg, left_lt, number, converted⟩ :=
    timeToTm_eq nonneg inYear small
  refine ⟨_, by rw [localtime, converted]; rfl, ⟨⟨?_, ?_, ?_⟩, ⟨?_, ?_, ?_, ?_⟩, rfl, ?_⟩, ?_⟩ <;>
    simp only [seconds, dateNumber, weekday, gregorianYear, gregorianMonth, Int.sub_add_cancel,
      Int.toNat_natCast, number]
  · omega
  · omega
  · omega
  · omega
  · exact ⟨by omega, by omega⟩
  · simp [dayNumber, monthLengths]
  · exact ⟨modern, small⟩
  · omega

theorem seconds_convertible (civil : Civil tm) : Convertible (seconds tm) := by
  obtain ⟨first, last⟩ := dayNumber_in_year civil.isDate
  obtain ⟨sec, min, hour⟩ := civil.time
  have start := yearStart_strictMono.monotone civil.year.1
  have stop := yearStart_strictMono.monotone (Int.add_le_add_right civil.year.2 1)
  rw [yearStart_epoch] at start
  unfold Convertible seconds dateNumber
  omega

/-- Every second in range becomes a valid record, every valid record is the one
its second becomes, and the order of the seconds is that of the fields. -/
theorem calendar_order :
    (∀ t, Convertible t → ∃ tm, localtime (some t) = some (some tm) ∧ Civil tm ∧ seconds tm = t) ∧
    (∀ tm, Civil tm → Convertible (seconds tm) ∧ localtime (some (seconds tm)) = some (some tm)) ∧
    ∀ s t tm tm', Convertible s → Convertible t → localtime (some s) = some (some tm) →
      localtime (some t) = some (some tm') → (s < t ↔ fields tm < fields tm') := by
  refine ⟨fun t convertible => localtime_civil convertible, fun tm civil => ?_,
    fun s t tm tm' inRange inRange' shown shown' => ?_⟩
  · obtain ⟨tm', shown, civil', same⟩ := localtime_civil (seconds_convertible civil)
    rw [eq_of_seconds civil' civil same] at shown
    exact ⟨seconds_convertible civil, shown⟩
  · obtain ⟨own, shown_own, civil, rfl⟩ := localtime_civil inRange
    obtain ⟨own', shown_own', civil', rfl⟩ := localtime_civil inRange'
    obtain rfl : own = tm := Option.some.inj (Option.some.inj (shown_own.symm.trans shown))
    obtain rfl : own' = tm' := Option.some.inj (Option.some.inj (shown_own'.symm.trans shown'))
    exact seconds_lt_iff civil civil'

/-- 29 February 2000 from its second, and its second from the record. -/
theorem calendar_order_leap_day :
    ∃ tm, localtime (some 951825600) = some (some tm) ∧
      localtime (some (seconds tm)) = some (some tm) := by
  obtain ⟨shown, back, -⟩ := calendar_order
  obtain ⟨tm, converted, civil, -⟩ := shown 951825600 ⟨by decide, by decide⟩
  exact ⟨tm, converted, (back tm civil).2⟩

end AxiomeToolchain.Guarantees.CalendarOrder
