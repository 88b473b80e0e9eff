/-!
# Dates

A moment is a number of seconds since the beginning of 1970, and is written as a date and a time of
day. Years repeat every 400 years; within a year that begins in March the months follow one rule.

## Main definitions

* `Calendar.Date`: year, month and day, with `Calendar.dateOfDay`
* `Calendar.written`: a moment as date and time
-/

namespace CodeNav.Calendar

/-- A day of the calendar. -/
structure Date where
  year : Int
  month : Nat
  day : Nat
  deriving DecidableEq, Inhabited

/-- The number of days in 400 years. -/
def daysPerEra : Nat := 146097

/-- The day with a number, counted from the first of January 1970. -/
def dateOfDay (n : Int) : Date :=
  let sinceMarch := n + 719468
  let era := sinceMarch / daysPerEra
  let dayOfEra := (sinceMarch % daysPerEra).toNat
  let yearOfEra :=
    (dayOfEra - dayOfEra / 1460 + dayOfEra / 36524 - dayOfEra / 146096) / 365
  let dayOfYear := dayOfEra - (365 * yearOfEra + yearOfEra / 4 - yearOfEra / 100)
  let monthFromMarch := (5 * dayOfYear + 2) / 153
  let day := dayOfYear - (153 * monthFromMarch + 2) / 5 + 1
  let month := if monthFromMarch < 10 then monthFromMarch + 3 else monthFromMarch - 9
  let year := (yearOfEra : Int) + era * 400 + (if month ≤ 2 then 1 else 0)
  ⟨year, month, day⟩

/-- A number with zeros in front of it. -/
def padded (width n : Nat) : String :=
  let digits := Nat.toDigits 10 n
  String.ofList (List.replicate (width - digits.length) '0' ++ digits)

/-- A year: four digits, with a sign when it has more of them or is negative. -/
def yearText (year : Int) : String :=
  if 0 ≤ year ∧ year ≤ 9999 then padded 4 year.toNat
  else (if year < 0 then "-" else "+") ++ padded 4 year.natAbs

/-- A moment as date and time, on the meridian of Greenwich. -/
def written (seconds : Int) : String :=
  let date := dateOfDay (seconds / 86400)
  let time := (seconds % 86400).toNat
  yearText date.year ++ "-" ++ padded 2 date.month ++ "-" ++ padded 2 date.day ++ "T"
    ++ padded 2 (time / 3600) ++ ":" ++ padded 2 (time / 60 % 60) ++ ":" ++ padded 2 (time % 60)
    ++ "Z"

end CodeNav.Calendar
