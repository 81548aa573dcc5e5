import AxiomeToolchain.Guarantees.Calendar

/-!
# The fields behind ctime

From 1970 on every field is in its range. Before, the divisions leave negative
remainders and the year loop stops at once: hours, minutes, seconds, the day of
the week and the day of the year come out negative, unless the count of days
happens to wrap.
-/

set_option autoImplicit false

namespace AxiomeToolchain.Guarantees.CtimeRange
open AxiomeToolchain.Library.CInt
open AxiomeToolchain.Library.Gregorian
open AxiomeToolchain.Source.Time
open AxiomeToolchain.Guarantees.Calendar

/-- The ranges of the C standard, without leap seconds. -/
structure InRange (tm : Tm) : Prop where
  sec : 0 ≤ tm.sec ∧ tm.sec ≤ 59
  min : 0 ≤ tm.min ∧ tm.min ≤ 59
  hour : 0 ≤ tm.hour ∧ tm.hour ≤ 23
  mday : 1 ≤ tm.mday ∧ tm.mday ≤ 31
  mon : 0 ≤ tm.mon ∧ tm.mon ≤ 11
  wday : 0 ≤ tm.wday ∧ tm.wday ≤ 6
  yday : 0 ≤ tm.yday ∧ tm.yday ≤ 365

/-- time_to_tm fills in fields in their ranges, and asctime finds both names. -/
structure CtimeTotal (t : Int) : Prop where
  fields : ∃ tm, timeToTm t = some tm ∧ InRange tm
  text : ∃ bytes, ctime (some t) = some (some bytes)

/-- Midnight of a Sunday whose day number is 0 to 30 when it is cut to an `int`. -/
def WrappedSunday (t : Int) : Prop :=
  t % 86400 = 0 ∧ (t / 86400 + 4) % 7 = 0 ∧ t / 86400 % 4294967296 ≤ 30

variable {t year : Int}

/-- Names are found for indices that are not negative. -/
theorem asctime_some {tm : Tm} (wday : 0 ≤ tm.wday) (mon : 0 ≤ tm.mon) :
    ∃ bytes, asctime (some tm) = some (some bytes) := by
  have row : ∀ (table : List (List UInt8)) (i : Int), 0 ≤ i → i < table.length →
      ∃ name, tableRow table i = some name := by
    intro table i low high
    have inside : i.toNat < table.length := by omega
    exact ⟨table[i.toNat], by rw [tableRow, if_pos low, List.getElem?_eq_getElem inside]⟩
  have days : ((wdayName.length : Nat) : Int) = 7 := rfl
  have months : ((monName.length : Nat) : Int) = 12 := rfl
  obtain ⟨wd, foundDay⟩ := row wdayName (tm.wday.tmod 7) (Int.tmod_nonneg 7 wday)
    (days ▸ Int.tmod_lt_of_pos _ (by decide))
  obtain ⟨mn, foundMonth⟩ := row monName (tm.mon.tmod 12) (Int.tmod_nonneg 12 mon)
    (months ▸ Int.tmod_lt_of_pos _ (by decide))
  rw [asctime, foundDay, foundMonth]
  exact ⟨_, rfl⟩

theorem ctime_some {tm : Tm} (converted : timeToTm t = some tm) (inRange : InRange tm) :
    ∃ bytes, ctime (some t) = some (some bytes) := by
  obtain ⟨bytes, text⟩ := asctime_some inRange.wday.1 inRange.mon.1
  refine ⟨bytes, ?_⟩
  rw [ctime, localtime, converted]
  exact text

theorem ctimeTotal_iff {tm : Tm} (converted : timeToTm t = some tm) :
    CtimeTotal t ↔ InRange tm := by
  constructor
  · intro total
    obtain ⟨tm', converted', inRange⟩ := total.fields
    rw [converted] at converted'
    cases converted'
    exact inRange
  · intro inRange
    exact ⟨⟨tm, converted, inRange⟩, ctime_some converted inRange⟩

/-! ## From 1970 on -/

theorem inRange_after (nonneg : 0 ≤ t) (inYear : InYear t year) (small : year ≤ intMax) :
    ∃ tm, timeToTm t = some tm ∧ InRange tm := by
  obtain ⟨k, month_lt, left, left_nonneg, left_lt, -, converted⟩ :=
    timeToTm_eq nonneg inYear small
  have month := monthLength_le year (k + 1)
  have length := yearLength_le year
  have next := yearStart_succ year
  obtain ⟨after, before⟩ := inYear
  refine ⟨_, converted, ?_⟩
  constructor <;> dsimp only <;> omega

/-! ## Before 1970 -/

/-- The record for a second before 1970, by the distance `u` back to it. -/
theorem timeToTm_before (u : Int) (nonneg : 0 ≤ u) :
    timeToTm (-u) = some
      { sec := -(u % 86400 % 3600 % 60), min := -(u % 86400 % 3600 / 60),
        hour := -(u % 86400 / 3600), mday := wrapInt (wrapInt (-(u / 86400)) + 1), mon := 0,
        year := 70, wday := (4 - u / 86400).tmod 7, yday := wrapInt (-(u / 86400)), isdst := 0 } := by
  have quotient : ∀ a b : Int, 0 ≤ a → (-a).tdiv b = -(a / b) := by
    intro a b nonneg
    rw [Int.neg_tdiv, Int.tdiv_eq_ediv_of_nonneg nonneg]
  have remainder : ∀ a b : Int, 0 ≤ a → (-a).tmod b = -(a % b) := by
    intro a b nonneg
    rw [Int.neg_tmod, Int.tmod_eq_emod_of_nonneg nonneg]
  have years : yearLoop ((-(u / 86400)).toNat + 1) 1970 (-(u / 86400)) =
      some (1970, -(u / 86400)) := by
    have length : yearDays 1970 = 365 := by decide
    rw [yearLoop, length, if_pos (by omega)]
  have months : monthLoop (monthDays (isLeapInt 1970)) 0 (-(u / 86400)) = (0, -(u / 86400)) := by
    have row : monthDays (isLeapInt 1970) = 31 :: (monthDays (isLeapInt 1970)).tail := by decide
    rw [row, monthLoop, if_neg (by omega)]
  have sunday : (-(u / 86400) + 4).tmod 7 = (4 - u / 86400).tmod 7 := by
    congr 1
    omega
  have low := Int.lt_tmod_of_pos (4 - u / 86400) (by decide : (0 : Int) < 7)
  have high := Int.tmod_lt_of_pos (4 - u / 86400) (by decide : (0 : Int) < 7)
  have wday : wrapInt ((4 - u / 86400).tmod 7) = (4 - u / 86400).tmod 7 :=
    wrapInt_of_range (by omega) (by omega)
  have hour : wrapInt (-(u % 86400 / 3600)) = -(u % 86400 / 3600) :=
    wrapInt_of_range (by omega) (by omega)
  have min : wrapInt (-(u % 86400 % 3600 / 60)) = -(u % 86400 % 3600 / 60) :=
    wrapInt_of_range (by omega) (by omega)
  have sec : wrapInt (-(u % 86400 % 3600 % 60)) = -(u % 86400 % 3600 % 60) :=
    wrapInt_of_range (by omega) (by omega)
  have year : wrapInt (1970 - 1900) = 70 := by decide
  simp only [timeToTm, quotient u 86400 nonneg, remainder u 86400 nonneg, years, Option.map_some,
    months, sunday, wday, quotient (u % 86400) 3600 (by omega),
    remainder (u % 86400) 3600 (by omega), quotient (u % 86400 % 3600) 60 (by omega),
    remainder (u % 86400 % 3600) 60 (by omega), hour, min, sec, year]

/-- `tm_wday` five days and more before the epoch. -/
theorem wday_before {days : Int} (far : 5 ≤ days) : (4 - days).tmod 7 = -((days - 4) % 7) := by
  rw [show 4 - days = -(days - 4) by omega, Int.neg_tmod, Int.tmod_eq_emod_of_nonneg (by omega)]

/-- `tm_yday` and `tm_mday` of a day before the epoch are in their ranges when the
day number wraps to 0 to 30. -/
theorem yday_before_iff (days : Int) :
    ((1 ≤ wrapInt (wrapInt (-days) + 1) ∧ wrapInt (wrapInt (-days) + 1) ≤ 31) ∧
      0 ≤ wrapInt (-days) ∧ wrapInt (-days) ≤ 365) ↔ -days % 4294967296 ≤ 30 := by
  constructor
  · intro ⟨mday, yday⟩
    rw [wrapInt_of_range (by omega) (by omega)] at mday
    unfold wrapInt at mday
    omega
  · intro wrapped
    have day : wrapInt (-days) = -days % 4294967296 := by
      unfold wrapInt
      omega
    rw [day, wrapInt_of_range (by omega) (by omega)]
    omega

/-- Of the negative seconds only the wrapped Sundays have fields in their ranges. -/
theorem inRange_before_iff (negative : t < 0) :
    ∃ tm, timeToTm t = some tm ∧ (InRange tm ↔ WrappedSunday t) := by
  obtain ⟨u, rfl⟩ : ∃ u, t = -u := ⟨-t, (Int.neg_neg t).symm⟩
  refine ⟨_, timeToTm_before u (by omega), ?_⟩
  constructor
  · intro inRange
    have sec := inRange.sec.1
    have min := inRange.min.1
    have hour := inRange.hour.1
    have wday := inRange.wday.1
    dsimp only at sec min hour wday
    have midnight : u % 86400 = 0 := by omega
    have positive : 0 < u / 86400 := by omega
    have wrapped := (yday_before_iff _).mp ⟨inRange.mday, inRange.yday⟩
    have back : -u / 86400 = -(u / 86400) := by omega
    rw [wday_before (by omega)] at wday
    rw [WrappedSunday, back]
    exact ⟨by omega, by omega, wrapped⟩
  · intro ⟨midnight, sunday, wrapped⟩
    have positive : 0 < u / 86400 := by omega
    have back : -u / 86400 = -(u / 86400) := by omega
    rw [back] at sunday wrapped
    obtain ⟨mday, yday⟩ := (yday_before_iff _).mpr wrapped
    refine ⟨?_, ?_, ?_, mday, ?_, ?_, yday⟩
    · dsimp only
      omega
    · dsimp only
      omega
    · dsimp only
      omega
    · dsimp only
      omega
    · dsimp only
      rw [wday_before (by omega)]
      omega

/-- ctime is total at the seconds from 1970 on, and before only where the day
number wraps. -/
theorem ctime_total_iff (t year : Int) (inYear : InYear t year) (fits : year ≤ intMax) :
    CtimeTotal t ↔ 0 ≤ t ∨ WrappedSunday t := by
  by_cases nonneg : 0 ≤ t
  · obtain ⟨tm, converted, inRange⟩ := inRange_after nonneg inYear fits
    rw [ctimeTotal_iff converted]
    exact iff_of_true inRange (.inl nonneg)
  · obtain ⟨tm, converted, before⟩ := inRange_before_iff (by omega : t < 0)
    rw [ctimeTotal_iff converted, before]
    exact (or_iff_right nonneg).symm

/-- 29 February 2000, noon. -/
theorem ctime_total_iff_leap_day : CtimeTotal 951825600 :=
  (ctime_total_iff 951825600 2000 ⟨by decide, by decide⟩ (by decide)).mpr (.inl (by decide))

/-- On 31 December 1969 the seconds are negative, and on 27 December the day of
the week: asctime reads outside its table. -/
theorem ctime_before_epoch :
    InYear (-1) 1969 ∧ (timeToTm (-1)).map Tm.sec = some (-1) ∧ ¬ CtimeTotal (-1) ∧
      InYear (-432000) 1969 ∧ (timeToTm (-432000)).map Tm.wday = some (-1) ∧
      ctime (some (-432000)) = none := by
  refine ⟨⟨by decide, by decide⟩, by decide, fun total => ?_, ⟨by decide, by decide⟩, by decide,
    by decide⟩
  obtain ⟨tm, converted, inRange⟩ := total.fields
  have seconds : (timeToTm (-1)).map Tm.sec = some (-1) := by decide
  rw [converted] at seconds
  have sec : tm.sec = -1 := Option.some.inj seconds
  have low := inRange.sec.1
  omega

end AxiomeToolchain.Guarantees.CtimeRange
