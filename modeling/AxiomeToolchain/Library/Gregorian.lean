import Mathlib

/-!
# The proleptic Gregorian calendar

Days are numbered from 1970-01-01, which is day 0 and a Thursday. The number of
the first day of a year is a closed formula with floor division; the rules of
4, 100 and 400 years turn into its differences.
-/

set_option autoImplicit false

namespace AxiomeToolchain.Library.Gregorian

def isLeap (year : Int) : Bool :=
  (decide (year % 4 = 0) && decide (year % 100 ≠ 0)) || decide (year % 400 = 0)

/-- Months are numbered from 1. -/
def monthLength (year : Int) (month : Nat) : Int :=
  if month = 2 then if isLeap year then 29 else 28
  else if month = 4 ∨ month = 6 ∨ month = 9 ∨ month = 11 then 30
  else 31

def yearLength (year : Int) : Int := if isLeap year then 366 else 365

/-- The lengths of the first `n` months. -/
def monthLengths (year : Int) (n : Nat) : List Int :=
  (List.range n).map (fun i => monthLength year (i + 1))

/-- The number of 1 January. -/
def yearStart (year : Int) : Int :=
  365 * (year - 1970) + (year - 1) / 4 - (year - 1) / 100 + (year - 1) / 400 - 477

def dayNumber (year : Int) (month : Nat) (day : Int) : Int :=
  yearStart year + (monthLengths year (month - 1)).sum + (day - 1)

/-- Sunday is 0. -/
def weekday (year : Int) (month : Nat) (day : Int) : Int := (dayNumber year month day + 4) % 7

/-- The second `t` after the start of 1970-01-01 lies in `year`. -/
def InYear (t year : Int) : Prop := 86400 * yearStart year ≤ t ∧ t < 86400 * yearStart (year + 1)

theorem yearStart_epoch : yearStart 1970 = 0 := by decide

theorem isLeap_iff (year : Int) :
    isLeap year = true ↔ (year % 4 = 0 ∧ year % 100 ≠ 0) ∨ year % 400 = 0 := by
  simp [isLeap]

theorem yearStart_succ (year : Int) : yearStart (year + 1) = yearStart year + yearLength year := by
  have leap := isLeap_iff year
  unfold yearStart yearLength
  split
  · next yes =>
    have rule := leap.mp yes
    omega
  · next no =>
    have rule := mt leap.mpr no
    omega

theorem yearLength_ge (year : Int) : 365 ≤ yearLength year := by
  unfold yearLength
  split <;> decide

theorem yearStart_strictMono : StrictMono yearStart := by
  apply strictMono_int_of_lt_succ
  intro year
  have length := yearLength_ge year
  rw [yearStart_succ]
  omega

/-- A day lies in one year only. -/
theorem year_unique (day : Int) {a b : Int} (low : yearStart a ≤ day)
    (high : day < yearStart (b + 1)) :
    a ≤ b :=
  Int.lt_add_one_iff.mp (yearStart_strictMono.lt_iff_lt.mp (Int.lt_of_le_of_lt low high))

/-- Every day from 1970 on lies in some year. -/
theorem exists_year (day : Int) (nonneg : 0 ≤ day) :
    ∃ year, yearStart year ≤ day ∧ day < yearStart (year + 1) := by
  have bounded : ∀ year, yearStart year ≤ day → year ≤ day + 1980 := by
    intro year starts
    unfold yearStart at starts
    omega
  obtain ⟨year, starts, greatest⟩ := Int.exists_greatest_of_bdd
    (P := fun year => yearStart year ≤ day) ⟨day + 1980, bounded⟩ ⟨1970, nonneg⟩
  refine ⟨year, starts, ?_⟩
  by_contra later
  have next := greatest (year + 1) (Int.not_lt.mp later)
  omega

theorem monthLengths_sum (year : Int) : (monthLengths year 12).sum = yearLength year := by
  unfold monthLengths monthLength yearLength
  cases isLeap year <;> decide

theorem monthLengths_take (year : Int) {k : Nat} (le : k ≤ 12) :
    (monthLengths year 12).take k = monthLengths year k := by
  rw [monthLengths, monthLengths, ← List.map_take, List.take_range, Nat.min_eq_left le]

theorem monthLengths_get {year length : Int} {k : Nat}
    (member : length ∈ (monthLengths year 12)[k]?) :
    k < 12 ∧ length = monthLength year (k + 1) := by
  rw [monthLengths, List.getElem?_map, Option.mem_def, Option.map_eq_some_iff] at member
  obtain ⟨i, found, rfl⟩ := member
  rw [List.getElem?_eq_some_iff] at found
  obtain ⟨small, at_k⟩ := found
  rw [List.getElem_range] at at_k
  subst at_k
  exact ⟨by simpa using small, rfl⟩

/-! ## The order of dates -/

/-- A day of the calendar. -/
structure IsDate (year : Int) (month : Nat) (day : Int) : Prop where
  in_year : 1 ≤ month ∧ month ≤ 12
  in_month : 1 ≤ day ∧ day ≤ monthLength year month

variable {year year' : Int} {month month' : Nat} {day day' : Int}

theorem monthLengths_succ (year : Int) (n : Nat) :
    (monthLengths year (n + 1)).sum = (monthLengths year n).sum + monthLength year (n + 1) := by
  simp [monthLengths, List.range_succ]

theorem monthLengths_mono (year : Int) {n k : Nat} (le : n ≤ k) :
    (monthLengths year n).sum ≤ (monthLengths year k).sum := by
  induction k, le using Nat.le_induction with
  | base => exact Int.le_refl _
  | succ k _ ih =>
    have positive : 0 ≤ monthLength year (k + 1) := by
      unfold monthLength
      split_ifs <;> decide
    rw [monthLengths_succ]
    omega

theorem dayNumber_in_year (date : IsDate year month day) :
    yearStart year ≤ dayNumber year month day ∧ dayNumber year month day < yearStart (year + 1) := by
  obtain ⟨⟨first, last⟩, low, high⟩ := date
  obtain ⟨k, rfl⟩ : ∃ k, month = k + 1 := ⟨month - 1, by omega⟩
  have start := monthLengths_mono year (Nat.zero_le k)
  have stop := monthLengths_mono year last
  rw [monthLengths_sum, monthLengths_succ] at stop
  have none : (monthLengths year 0).sum = 0 := rfl
  rw [yearStart_succ, dayNumber, Nat.add_sub_cancel]
  omega

/-- Year first, then month, then day. -/
theorem dayNumber_lt (date : IsDate year month day) (date' : IsDate year' month' day')
    (before : year < year' ∨ year = year' ∧ (month < month' ∨ month = month' ∧ day < day')) :
    dayNumber year month day < dayNumber year' month' day' := by
  rcases before with earlier | ⟨rfl, earlier | ⟨rfl, earlier⟩⟩
  · have stop := (dayNumber_in_year date).2
    have start := (dayNumber_in_year date').1
    have years := yearStart_strictMono.monotone (Int.add_one_le_iff.mpr earlier)
    omega
  · obtain ⟨⟨first, -⟩, -, high⟩ := date
    obtain ⟨-, low, -⟩ := date'
    obtain ⟨k, rfl⟩ : ∃ k, month = k + 1 := ⟨month - 1, by omega⟩
    have months := monthLengths_mono year (show k + 1 ≤ month' - 1 by omega)
    rw [monthLengths_succ] at months
    rw [dayNumber, dayNumber, Nat.add_sub_cancel]
    omega
  · rw [dayNumber, dayNumber]
    omega

end AxiomeToolchain.Library.Gregorian
