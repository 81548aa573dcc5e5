import AxiomeToolchain.Library.CInt
import AxiomeToolchain.Guarantees.Calendar

/-!
# The text of ctime tells the time

`parse` reads the 26 bytes 'Www Mmm dd hh:mm:ss yyyy', newline and NUL with
tables of names of its own. Up to the end of the year 9999, when the year still
has four digits, the date and time read back are those of the argument.
-/

set_option autoImplicit false

namespace AxiomeToolchain.Guarantees.CtimeText
open AxiomeToolchain.Library.CInt
open AxiomeToolchain.Library.Gregorian
open AxiomeToolchain.Source.Stdio (ascii spaceChar)
open AxiomeToolchain.Source.Time
open AxiomeToolchain.Guarantees.Calendar

/-- What the text says. Days of the week count from Sunday as 0, months from 1. -/
structure Reading where
  weekday : Nat
  month : Nat
  day : Nat
  hour : Nat
  minute : Nat
  second : Nat
  year : Nat

/-- Seconds from the start of 1970-01-01, through the calendar. -/
def Reading.seconds (r : Reading) : Int :=
  86400 * dayNumber r.year r.month r.day + 3600 * r.hour + 60 * r.minute + r.second

def dayNames : List (List UInt8) := ["Sun", "Mon", "Tue", "Wed", "Thu", "Fri", "Sat"].map ascii

def monthNames : List (List UInt8) :=
  ["Jan", "Feb", "Mar", "Apr", "May", "Jun", "Jul", "Aug", "Sep", "Oct", "Nov", "Dec"].map ascii

def number (digits : List UInt8) : Option Nat := positional false 10 0 digits

/-- A day below 10 has a space in front. -/
def dayNumeral (tens ones : UInt8) : Option Nat :=
  if tens = spaceChar then number [ones] else number [tens, ones]

/-- What stands between the fields: spaces, colons, newline and NUL. -/
def separators : List UInt8 := ascii "   :: " ++ [10, 0]

def parse : List UInt8 → Option Reading
  | [w₁, w₂, w₃, p₁, m₁, m₂, m₃, p₂, d₁, d₂, p₃, h₁, h₂, p₄, i₁, i₂, p₅, s₁, s₂, p₆, y₁, y₂, y₃, y₄,
      p₇, p₈] =>
    if [p₁, p₂, p₃, p₄, p₅, p₆, p₇, p₈] = separators then
      (dayNames.idxOf? [w₁, w₂, w₃]).bind (fun weekday =>
      (monthNames.idxOf? [m₁, m₂, m₃]).bind (fun month =>
      (dayNumeral d₁ d₂).bind (fun day =>
      (number [h₁, h₂]).bind (fun hour =>
      (number [i₁, i₂]).bind (fun minute =>
      (number [s₁, s₂]).bind (fun second =>
      (number [y₁, y₂, y₃, y₄]).map (fun year =>
        ⟨weekday, month + 1, day, hour, minute, second, year⟩)))))))
    else none
  | _ => none

/-! ## Digits -/

variable {n : Nat} {t : Int}

theorem digitValue_digitChar (small : n < 10) : digitValue false (digitChar n) = some n := by
  interval_cases n <;> rfl

theorem digitChar_not_space (small : n < 10) : digitChar n ≠ spaceChar := by
  interval_cases n <;> decide

theorem number_one (small : n < 10) : number [digitChar n] = some n := by
  rw [number, positional_cons 0 [] (digitValue_digitChar small) small, Nat.zero_mul, Nat.zero_add]
  rfl

/-- The digits of `n / 10` with the last digit of `n` behind them. -/
theorem number_last {front : List UInt8} (before : number front = some (n / 10)) :
    number (front ++ [digitChar (n % 10 : Nat)]) = some n := by
  have small : n % 10 < 10 := Nat.mod_lt n (by decide)
  rw [number] at before ⊢
  rw [positional_append, before, Option.bind_some,
    positional_cons _ [] (digitValue_digitChar small) small, positional, Nat.div_add_mod']

theorem number_two (small : n < 100) : number (twoDigits n) = some n :=
  number_last (number_one (by omega))

theorem number_four (small : n < 10000) :
    number [digitChar ((n : Int).tdiv 1000), digitChar (((n : Int).tdiv 100).tmod 10),
      digitChar (((n : Int).tdiv 10).tmod 10), digitChar ((n : Int).tmod 10)] = some n := by
  have thousands : number [digitChar (n / 100 / 10 : Nat)] = some (n / 100 / 10) :=
    number_one (by omega)
  have hundreds := number_last (n := n / 100) thousands
  rw [show n / 100 = n / 10 / 10 by omega] at hundreds
  have all := number_last (number_last hundreds)
  rw [show n / 10 / 10 / 10 = n / 1000 by omega, show n / 10 / 10 = n / 100 by omega] at all
  exact all

theorem dayNumeral_eq (small : n < 100) :
    dayNumeral (if (n : Int) ≥ 10 then digitChar ((n : Int).tdiv 10) else spaceChar)
      (digitChar ((n : Int).tmod 10)) = some n := by
  rw [dayNumeral]
  split
  · next two =>
    have tens : digitChar ((n : Int).tdiv 10) ≠ spaceChar :=
      digitChar_not_space (n := n / 10) (by omega)
    rw [if_neg tens]
    exact number_two small
  · next one =>
    have same : (n : Int).tmod 10 = n := Int.tmod_eq_of_lt (by omega) (by omega)
    rw [if_pos rfl, same]
    exact number_one (by omega)

/-! ## Names -/

/-- The tables of asctime have the names in order, with three letters each. -/
theorem wday_rows : ∀ i : Nat, i < 7 → (tableRow wdayName ((i : Int).tmod 7)).map
    (fun row => ((row.take 3).length, dayNames.idxOf? (row.take 3))) = some (3, some i) := by
  decide

theorem mon_rows : ∀ i : Nat, i < 12 → (tableRow monName ((i : Int).tmod 12)).map
    (fun row => ((row.take 3).length, monthNames.idxOf? (row.take 3))) = some (3, some i) := by
  decide

theorem row_letters {row : Option (List UInt8)} {names : List (List UInt8)} {i : Nat}
    (found : row.map (fun row => ((row.take 3).length, names.idxOf? (row.take 3))) =
      some (3, some i)) :
    ∃ letters a b c, row = some letters ∧ letters.take 3 = [a, b, c] ∧
      names.idxOf? [a, b, c] = some i := by
  obtain ⟨letters, rfl, both⟩ := Option.map_eq_some_iff.mp found
  obtain ⟨length, index⟩ := Prod.mk.inj both
  obtain ⟨a, b, c, shape⟩ := List.length_eq_three.mp length
  exact ⟨letters, a, b, c, rfl, shape, shape ▸ index⟩

/-! ## The text -/

/-- The year of a second up to the end of 9999. -/
theorem year_of (nonneg : 0 ≤ t) (last : t ≤ 253402300799) :
    ∃ year, InYear t year ∧ 1970 ≤ year ∧ year ≤ 9999 := by
  obtain ⟨year, low, high⟩ := exists_year (t / 86400) (by omega)
  have epoch := yearStart_epoch
  have stop : yearStart (9999 + 1) = 2932897 := by decide
  exact ⟨year, ⟨by omega, by omega⟩, year_unique (t / 86400) (by omega) high,
    year_unique (t / 86400) low (by omega)⟩

theorem asctime_parses {weekday month sec min hour mday year : Nat} (yday isdst : Int)
    (days : weekday < 7) (months : month < 12) (mdays : mday < 100) (hours : hour < 100)
    (mins : min < 100) (secs : sec < 100) (four : year < 10000) :
    ∃ text, asctime (some ⟨sec, min, hour, mday, month, year - 1900, weekday, yday, isdst⟩) =
        some (some text) ∧
      text.length = 26 ∧ parse text = some ⟨weekday, month + 1, mday, hour, min, sec, year⟩ := by
  obtain ⟨day, w₁, w₂, w₃, foundDay, dayLetters, dayIndex⟩ := row_letters (wday_rows weekday days)
  obtain ⟨name, m₁, m₂, m₃, foundMonth, letters, index⟩ := row_letters (mon_rows month months)
  have shifted : wrapInt ((year : Int) - 1900 + 1900) = year := by
    rw [Int.sub_add_cancel, wrapInt_of_range (by omega) (by omega)]
  have colon : ascii ":" = [58] := by decide
  have fixed : [spaceChar, spaceChar, spaceChar, 58, 58, spaceChar, 10, 0] = separators := by decide
  have hour_eq := number_two hours
  have min_eq := number_two mins
  have sec_eq := number_two secs
  rw [asctime, foundDay, foundMonth, Option.bind_some, Option.map_some, dayLetters, letters,
    shifted, colon]
  simp only [twoDigits, List.cons_append, List.nil_append] at hour_eq min_eq sec_eq ⊢
  refine ⟨_, rfl, rfl, ?_⟩
  rw [parse, if_pos fixed, dayIndex, Option.bind_some, index, Option.bind_some, dayNumeral_eq mdays,
    Option.bind_some, hour_eq, Option.bind_some, min_eq, Option.bind_some, sec_eq,
    Option.bind_some, number_four four, Option.map_some]

theorem ctime_parses (nonneg : 0 ≤ t) (last : t ≤ 253402300799) :
    ∃ text r, ctime (some t) = some (some text) ∧ text.length = 26 ∧ parse text = some r ∧
      r.seconds = t ∧ r.weekday = weekday r.year r.month r.day := by
  obtain ⟨year, inYear, modern, four⟩ := year_of nonneg last
  have small : year ≤ intMax := Int.le_trans four (by decide)
  obtain ⟨k, months, left, left_nonneg, left_lt, date, converted⟩ := timeToTm_eq nonneg inYear small
  have short := monthLength_le year (k + 1)
  -- Each field is not negative, so it is a number that digits can spell.
  have field : ∀ x : Int, 0 ≤ x → ∃ n : Nat, x = n := fun x low => Int.eq_ofNat_of_zero_le low
  obtain ⟨wday, wday_eq⟩ := field ((t / 86400 + 4) % 7) (by omega)
  obtain ⟨mday, mday_eq⟩ := field (left + 1) (by omega)
  obtain ⟨hour, hour_eq⟩ := field (t % 86400 / 3600) (by omega)
  obtain ⟨min, min_eq⟩ := field (t % 3600 / 60) (by omega)
  obtain ⟨sec, sec_eq⟩ := field (t % 60) (by omega)
  obtain ⟨y, rfl⟩ := field year (by omega)
  rw [mday_eq] at date
  rw [wday_eq, mday_eq, hour_eq, min_eq, sec_eq] at converted
  obtain ⟨text, run, length, parsed⟩ := asctime_parses (t / 86400 - yearStart y) 0
    (by omega : wday < 7) months (by omega : mday < 100) (by omega : hour < 100)
    (by omega : min < 100) (by omega : sec < 100) (by omega : y < 10000)
  refine ⟨text, _, ?_, length, parsed, ?_, ?_⟩
  · rw [ctime, localtime, converted]
    exact run
  · rw [Reading.seconds, date]
    dsimp only
    omega
  · rw [weekday, date]
    exact wday_eq.symm

/-- For every second up to the end of 9999: ctime gives 26 bytes from which the
calendar gets the second back, the day of the week is that of the date, and no
other such second has the same text. -/
theorem ctime_text (t : Int) (nonneg : 0 ≤ t) (last : t ≤ 253402300799) :
    ∃ text r, ctime (some t) = some (some text) ∧ text.length = 26 ∧ parse text = some r ∧
      r.seconds = t ∧ r.weekday = weekday r.year r.month r.day ∧
      ∀ t', 0 ≤ t' → t' ≤ 253402300799 → ctime (some t') = some (some text) → t' = t := by
  obtain ⟨text, r, run, length, parsed, back, wday⟩ := ctime_parses nonneg last
  refine ⟨text, r, run, length, parsed, back, wday, ?_⟩
  intro t' nonneg' last' same
  obtain ⟨text', r', run', -, parsed', back', -⟩ := ctime_parses nonneg' last'
  cases same.symm.trans run'
  cases parsed.symm.trans parsed'
  exact back'.symm.trans back

/-- 29 February 2000, noon, a Tuesday. -/
theorem ctime_text_leap_day :
    ctime (some 951825600) = some (some (ascii "Tue Feb 29 12:00:00 2000" ++ [10, 0])) ∧
      ∀ t', 0 ≤ t' → t' ≤ 253402300799 →
        ctime (some t') = some (some (ascii "Tue Feb 29 12:00:00 2000" ++ [10, 0])) →
        t' = 951825600 := by
  obtain ⟨text, r, run, -, -, -, -, alone⟩ := ctime_text 951825600 (by decide) (by decide)
  have text_eq : ctime (some 951825600) =
      some (some (ascii "Tue Feb 29 12:00:00 2000" ++ [10, 0])) := by decide
  cases run.symm.trans text_eq
  exact ⟨run, alone⟩

end AxiomeToolchain.Guarantees.CtimeText
