/-!
Dates of the proleptic Gregorian calendar, and their day numbers.
-/

namespace Agenda

namespace Date

def leastYear : Int := -262143

def greatestYear : Int := 262142

def isLeapYear (year : Int) : Bool :=
  year % 4 == 0 && (year % 100 != 0 || year % 400 == 0)

def daysInMonth (year : Int) (month : Nat) : Nat :=
  if month = 2 then (if isLeapYear year then 29 else 28)
  else if month = 4 ∨ month = 6 ∨ month = 9 ∨ month = 11 then 30
  else 31

def Exists (year : Int) (month day : Nat) : Prop :=
  leastYear ≤ year ∧ year ≤ greatestYear ∧ 1 ≤ month ∧ month ≤ 12 ∧
    1 ≤ day ∧ day ≤ daysInMonth year month

instance (year : Int) (month day : Nat) : Decidable (Exists year month day) := by
  unfold Exists
  infer_instance

end Date

structure Date where
  year : Int
  month : Nat
  day : Nat
  exists_date : Date.Exists year month day

namespace Date

def of? (year : Int) (month day : Nat) : Option Date :=
  if found : Exists year month day then some ⟨year, month, day, found⟩ else none

/-- Days since the first of March of the year 0. Years are counted from March on, so that the leap
day is the last day of its year. -/
def dayNumber (date : Date) : Int :=
  let year := if date.month ≤ 2 then date.year - 1 else date.year
  let monthFromMarch := (date.month + 9) % 12
  let dayOfYear : Int := (153 * monthFromMarch + 2) / 5 + date.day - 1
  365 * year + year / 4 - year / 100 + year / 400 + dayOfYear

def ofDayNumber? (number : Int) : Option Date :=
  let era := number / 146097
  let dayOfEra := (number % 146097).toNat
  let yearOfEra := (dayOfEra - dayOfEra / 1460 + dayOfEra / 36524 - dayOfEra / 146096) / 365
  let dayOfYear := dayOfEra - (365 * yearOfEra + yearOfEra / 4 - yearOfEra / 100)
  let monthFromMarch := (5 * dayOfYear + 2) / 153
  let day := dayOfYear - (153 * monthFromMarch + 2) / 5 + 1
  let month := if monthFromMarch < 10 then monthFromMarch + 3 else monthFromMarch - 9
  let year := era * 400 + yearOfEra + (if month ≤ 2 then 1 else 0)
  of? year month day

def addDays? (date : Date) (days : Int) : Option Date :=
  if days = 0 then some date else ofDayNumber? (date.dayNumber + days)

end Date

end Agenda
