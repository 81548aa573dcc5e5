import AxiomeToolchain.Library.CInt
import AxiomeToolchain.Library.Gregorian
import AxiomeToolchain.Source.Stdio

/-!
# Broken-down time

sdk/src/time.c:22-138. `/` and `%` of C truncate toward zero (`tdiv`, `tmod`);
values stored in an `int` wrap. The year loop gets a budget of rounds; each
round takes at least 365 days off, so the number of days is enough. A read
outside the tables of names is `none`.
-/

set_option autoImplicit false

namespace AxiomeToolchain.Source.Time
open AxiomeToolchain.Library.CInt
open AxiomeToolchain.Library.Gregorian
open AxiomeToolchain.Source.Stdio (ascii spaceChar)

structure Tm where
  sec : Int
  min : Int
  hour : Int
  mday : Int
  mon : Int
  year : Int
  wday : Int
  yday : Int
  isdst : Int
  deriving DecidableEq, Repr

/-- `is_leap`, with the remainder of C. -/
def isLeapInt (year : Int) : Bool :=
  (decide (year.tmod 4 = 0) && decide (year.tmod 100 ≠ 0)) || decide (year.tmod 400 = 0)

def yearDays (year : Int) : Int := if isLeapInt year then 366 else 365

/-- The two rows of `month_days`. -/
def monthDays (leap : Bool) : List Int :=
  if leap then [31, 29, 31, 30, 31, 30, 31, 31, 30, 31, 30, 31]
  else [31, 28, 31, 30, 31, 30, 31, 31, 30, 31, 30, 31]

/-- `for (;;)`: the year, and the days left in it. -/
def yearLoop : Nat → Int → Int → Option (Int × Int)
  | 0, _, _ => none
  | budget + 1, year, days =>
    if days < yearDays year then some (year, days)
    else yearLoop budget (wrapInt (year + 1)) (days - yearDays year)

/-- `while (month < 12 && days >= month_days[is_leap][month])`, over the rest of the row. -/
def monthLoop : List Int → Int → Int → Int × Int
  | [], month, days => (month, days)
  | length :: rest, month, days =>
    if days ≥ length then monthLoop rest (month + 1) (days - length) else (month, days)

def timeToTm (t : Int) : Option Tm :=
  let days := t.tdiv 86400
  let rem := t.tmod 86400
  let hour := wrapInt (rem.tdiv 3600)
  let rem := rem.tmod 3600
  let min := wrapInt (rem.tdiv 60)
  let sec := wrapInt (rem.tmod 60)
  let wday := wrapInt ((days + 4).tmod 7)
  (yearLoop (days.toNat + 1) 1970 days).map (fun (year, days) =>
    let yday := wrapInt days
    let (month, days) := monthLoop (monthDays (isLeapInt year)) 0 days
    { sec, min, hour, mday := wrapInt (wrapInt days + 1), mon := month, year := wrapInt (year - 1900),
      wday, yday, isdst := 0 })

/-- `none` inside is the NULL returned for a NULL argument. -/
def localtime (timep : Option Int) : Option (Option Tm) :=
  match timep with
  | none => some none
  | some t => (timeToTm t).map some

def gmtime (timep : Option Int) : Option (Option Tm) := localtime timep

/-- A row of a table of names: three letters and a NUL. -/
def nameRow (s : String) : List UInt8 := ascii s ++ [0]

def wdayName : List (List UInt8) :=
  [nameRow "Sun", nameRow "Mon", nameRow "Tue", nameRow "Wed", nameRow "Thu", nameRow "Fri",
    nameRow "Sat"]

def monName : List (List UInt8) :=
  [nameRow "Jan", nameRow "Feb", nameRow "Mar", nameRow "Apr", nameRow "May", nameRow "Jun",
    nameRow "Jul", nameRow "Aug", nameRow "Sep", nameRow "Oct", nameRow "Nov", nameRow "Dec"]

def tableRow (table : List (List UInt8)) (i : Int) : Option (List UInt8) :=
  if 0 ≤ i then table[i.toNat]? else none

/-- `'0' + x`, stored in a `char`. -/
def digitChar (x : Int) : UInt8 := UInt8.ofInt (48 + x)

/-- Two digits, as for the hour. -/
def twoDigits (x : Int) : List UInt8 := [digitChar (x.tdiv 10), digitChar (x.tmod 10)]

/-- The bytes of `buf`; `none` inside is NULL. -/
def asctime (tm : Option Tm) : Option (Option (List UInt8)) :=
  match tm with
  | none => some none
  | some tm =>
    (tableRow wdayName (tm.wday.tmod 7)).bind (fun wd =>
      (tableRow monName (tm.mon.tmod 12)).map (fun mn =>
        let year := wrapInt (tm.year + 1900)
        some (wd.take 3 ++ [spaceChar] ++ mn.take 3 ++ [spaceChar] ++
          [if tm.mday ≥ 10 then digitChar (tm.mday.tdiv 10) else spaceChar,
            digitChar (tm.mday.tmod 10)] ++ [spaceChar] ++
          twoDigits tm.hour ++ ascii ":" ++ twoDigits tm.min ++ ascii ":" ++ twoDigits tm.sec ++
          [spaceChar] ++
          [digitChar (year.tdiv 1000), digitChar ((year.tdiv 100).tmod 10),
            digitChar ((year.tdiv 10).tmod 10), digitChar (year.tmod 10)] ++ [10, 0])))

def ctime (timep : Option Int) : Option (Option (List UInt8)) := (localtime timep).bind asctime

variable {year days : Int} {budget : Nat}

theorem isLeapInt_eq (nonneg : 0 ≤ year) : isLeapInt year = isLeap year := by
  unfold isLeapInt isLeap
  rw [Int.tmod_eq_emod_of_nonneg nonneg, Int.tmod_eq_emod_of_nonneg nonneg,
    Int.tmod_eq_emod_of_nonneg nonneg]

theorem yearDays_eq (nonneg : 0 ≤ year) : yearDays year = yearLength year := by
  rw [yearDays, yearLength, isLeapInt_eq nonneg]

theorem monthDays_eq (year : Int) : monthDays (isLeap year) = monthLengths year 12 := by
  unfold monthLengths monthLength
  cases isLeap year <;> decide

/-- The year loop stops in the year that holds the day. -/
theorem yearLoop_eq (target : Int) (budget : Nat) (year days : Int) (enough : days < budget)
    (modern : 0 ≤ year) (nonneg : 0 ≤ days) (low : yearStart target ≤ yearStart year + days)
    (high : yearStart year + days < yearStart (target + 1)) (small : target ≤ 2147483647) :
    yearLoop budget year days = some (target, yearStart year + days - yearStart target) := by
  induction budget generalizing year days with
  | zero => omega
  | succ budget ih =>
    have length := yearLength_ge year
    have next := yearStart_succ year
    rw [yearLoop, yearDays_eq modern]
    split
    · next stays =>
      have same : year = target := by
        have before : year ≤ target := year_unique (yearStart year + days) (by omega) high
        have after : target ≤ year := year_unique (yearStart year + days) low (by omega)
        omega
      subst same
      congr 2
      omega
    · next leaves =>
      have later : year + 1 ≤ target := year_unique (yearStart year + days) (by omega) high
      rw [wrapInt_of_range (by omega) (by omega),
        ih (year + 1) (days - yearLength year) (by omega) (by omega) (by omega) (by omega) (by omega)]
      congr 2
      omega

/-- The month loop stops in the month that holds the day. -/
theorem monthLoop_eq (row : List Int) (month days : Int) (nonneg : 0 ≤ days)
    (inside : days < row.sum) :
    ∃ k : Nat, ∃ length ∈ row[k]?, monthLoop row month days = (month + k, days - (row.take k).sum) ∧
      0 ≤ days - (row.take k).sum ∧ days - (row.take k).sum < length := by
  induction row generalizing month days with
  | nil => simp at inside; omega
  | cons first rest ih =>
    rw [List.sum_cons] at inside
    rw [monthLoop]
    split
    · next leaves =>
      obtain ⟨k, length, member, run, low, high⟩ :=
        ih (month + 1) (days - first) (by omega) (by omega)
      refine ⟨k + 1, length, by simpa using member, ?_, ?_, ?_⟩
      · rw [run, List.take_succ_cons, List.sum_cons]
        congr 1 <;> push_cast <;> omega
      · rw [List.take_succ_cons, List.sum_cons]
        omega
      · rw [List.take_succ_cons, List.sum_cons]
        omega
    · next stays =>
      refine ⟨0, first, rfl, ?_, ?_, ?_⟩
      · simp
      · simpa using nonneg
      · simpa using stays

end AxiomeToolchain.Source.Time
