import RecordApi.Number.Numeral

/-!
# Dates of the Gregorian calendar, years 1 to 9999

A date carries the proof that its day exists.  `Date.ordinal` counts the days from
the first day of year 1, which has ordinal 1, and `Date.ofOrdinal?` goes back.
-/

namespace RecordApi
namespace Calendar

def isLeap (year : Nat) : Bool :=
  year % 4 == 0 && (year % 100 != 0 || year % 400 == 0)

def daysInMonth (year month : Nat) : Nat :=
  match month with
  | 2 => if isLeap year then 29 else 28
  | 4 | 6 | 9 | 11 => 30
  | _ => 31

def daysBeforeYear (year : Nat) : Nat :=
  let past := year - 1
  past * 365 + past / 4 - past / 100 + past / 400

def daysBeforeMonth (year month : Nat) : Nat :=
  (List.range (month - 1)).foldr (fun m n => daysInMonth year (m + 1) + n) 0

/-- The year, month and day exist. -/
def Exists (year month day : Nat) : Prop :=
  1 ≤ year ∧ year ≤ 9999 ∧ 1 ≤ month ∧ month ≤ 12 ∧ 1 ≤ day ∧ day ≤ daysInMonth year month

instance (year month day : Nat) : Decidable (Exists year month day) :=
  inferInstanceAs (Decidable (_ ∧ _))

end Calendar

open Calendar

structure Date where
  year : Nat
  month : Nat
  day : Nat
  exists_day : Calendar.Exists year month day
deriving DecidableEq

namespace Date

def ofCivil? (year month day : Nat) : Option Date :=
  if h : Calendar.Exists year month day then some ⟨year, month, day, h⟩ else none

/-- The number of days up to and including a date, from the first day of year 1. -/
def ordinal (date : Date) : Nat :=
  daysBeforeYear date.year + daysBeforeMonth date.year date.month + date.day

/-- The month and day of the day with a given number in its year, counted from 0. -/
def monthAndDay (year : Nat) : Nat → Nat → Nat → Nat × Nat
  | 0, month, rest => (month, rest + 1)
  | fuel + 1, month, rest =>
      let days := daysInMonth year month
      if rest < days then (month, rest + 1) else monthAndDay year fuel (month + 1) (rest - days)

/-- The year of the day with a given ordinal, counted from 0. -/
def yearOfDay (n : Nat) : Nat :=
  let cycles := n / 146097
  let n := n % 146097
  let centuries := min (n / 36524) 3
  let n := n - centuries * 36524
  let leaps := n / 1461
  let n := n % 1461
  let years := min (n / 365) 3
  400 * cycles + 100 * centuries + 4 * leaps + years + 1

/-- The date with a given ordinal, if it lies in the years 1 to 9999. -/
def ofOrdinal? (n : Int) : Option Date :=
  if n < 1 then none
  else
    let days := n.toNat - 1
    let year := yearOfDay days
    let (month, day) := monthAndDay year 11 1 (days - daysBeforeYear year)
    ofCivil? year month day

/-- The day of the week, Monday being 0. -/
def weekday (date : Date) : Nat :=
  (date.ordinal + 6) % 7

def padded (count n : Nat) : List Char :=
  let ds := Nat.toDigits 10 n
  List.replicate (count - ds.length) '0' ++ ds

def chars (date : Date) : List Char :=
  padded 4 date.year ++ '-' :: padded 2 date.month ++ '-' :: padded 2 date.day

/-- `YYYY-MM-DD`. -/
def text (date : Date) : String :=
  String.ofList date.chars

end Date

namespace Calendar

/-- The ordinal of the Monday that starts the first week of a year: the week with the
year's first Thursday. -/
def firstMonday (year : Nat) : Int :=
  let first : Int := daysBeforeYear year + 1
  let weekday := (first + 6) % 7
  let monday := first - weekday
  if weekday > 3 then monday + 7 else monday

/-- A year has a week 53 when it starts on a Thursday, or is a leap year that starts on
a Wednesday. -/
def hasWeek53 (year : Nat) : Bool :=
  let weekday := (daysBeforeYear year + 7) % 7
  weekday == 3 || (weekday == 2 && isLeap year)

def dateOfWeek? (year week day : Nat) : Option Date :=
  if 1 ≤ year ∧ year ≤ 9999 ∧ 1 ≤ day ∧ day ≤ 7 ∧
      (1 ≤ week ∧ week ≤ 52 ∨ week = 53 ∧ hasWeek53 year) then
    Date.ofOrdinal? (firstMonday year + ((week - 1) * 7 + (day - 1) : Nat))
  else none

end Calendar
end RecordApi
