import ToxEvents.Text.Numeral
set_option autoImplicit false

namespace ToxEvents.Calendar

def isLeapYear (year : Nat) : Bool := year % 4 = 0 && (year % 100 ≠ 0 || year % 400 = 0)

def daysIn (year month : Nat) : Nat :=
  if month = 2 then if isLeapYear year then 29 else 28
  else if month = 4 ∨ month = 6 ∨ month = 9 ∨ month = 11 then 30
  else 31

structure Date where
  year : Nat
  month : Nat
  day : Nat
deriving DecidableEq, Repr

def eraDays : Nat := 146097

/-- The days from the first of March of the year 0 to the start of 1970. -/
def epochDay : Nat := 719468

/-- The date that many days after the start of 1970. Years are counted from March, so that a leap
day is the last of its year. -/
def dateOfDay (days : Nat) : Date :=
  let day := epochDay + days
  let era := day / eraDays
  let dayOfEra := day % eraDays
  let yearOfEra := (dayOfEra - dayOfEra / 1460 + dayOfEra / 36524 - dayOfEra / 146096) / 365
  let dayOfYear := dayOfEra - (365 * yearOfEra + yearOfEra / 4 - yearOfEra / 100)
  let month := (5 * dayOfYear + 2) / 153
  let year := 400 * era + yearOfEra
  ⟨if month < 10 then year else year + 1, if month < 10 then month + 3 else month - 9,
    dayOfYear - (153 * month + 2) / 5 + 1⟩

def digits (width n : Nat) : String := Text.padLeft width '0' (toString n)

def stamp (seconds : Nat) : String :=
  let date := dateOfDay (seconds / 86400)
  let time := seconds % 86400
  s!"{digits 4 date.year}-{digits 2 date.month}-{digits 2 date.day}"
    ++ s!"T{digits 2 (time / 3600)}:{digits 2 (time / 60 % 60)}:{digits 2 (time % 60)}Z"

end ToxEvents.Calendar
