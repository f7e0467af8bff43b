/-! Moments: what a clock counts, and the date and time of day that it stands for. -/
namespace Clarion

/-- A moment: what the clock counts, in the unit that the times of files are in too, and how it is
written. -/
structure Moment where
  ticks : Nat
  text : String
deriving Repr, DecidableEq

namespace Moment

/-- Year, month and day of a number of days since the start of 1970. Years are counted from March,
so that the leap day comes last, in eras of 400 years. -/
def dateOfDays (days : Nat) : Nat × Nat × Nat :=
  let sinceMarch := days + 719468
  let era := sinceMarch / 146097
  let dayOfEra := sinceMarch % 146097
  let yearOfEra := (dayOfEra - dayOfEra / 1460 + dayOfEra / 36524 - dayOfEra / 146096) / 365
  let dayOfYear := dayOfEra - (365 * yearOfEra + yearOfEra / 4 - yearOfEra / 100)
  let monthFromMarch := (5 * dayOfYear + 2) / 153
  let day := dayOfYear - (153 * monthFromMarch + 2) / 5 + 1
  let month := if monthFromMarch < 10 then monthFromMarch + 3 else monthFromMarch - 9
  (400 * era + yearOfEra + (if month ≤ 2 then 1 else 0), month, day)

/-- A number with zeros before it, `width` digits at least. -/
def padded (width number : Nat) : String :=
  let digits := toString number
  String.ofList (List.replicate (width - digits.length) '0') ++ digits

/-- The part of a second, in thousandths, millionths or billionths, whichever is enough. -/
def fraction (nanoseconds : Nat) : String :=
  if nanoseconds = 0 then ""
  else if nanoseconds % 1000000 = 0 then "." ++ padded 3 (nanoseconds / 1000000)
  else if nanoseconds % 1000 = 0 then "." ++ padded 6 (nanoseconds / 1000)
  else "." ++ padded 9 nanoseconds

/-- The moment of a clock that counts nanoseconds from the start of 1970. -/
def ofClock (nanoseconds : Nat) : Moment :=
  let seconds := nanoseconds / 1000000000
  let (year, month, day) := dateOfDays (seconds / 86400)
  let clock := seconds % 86400
  let date := padded 4 year ++ "-" ++ padded 2 month ++ "-" ++ padded 2 day
  let time := padded 2 (clock / 3600) ++ ":" ++ padded 2 (clock / 60 % 60) ++ ":" ++
    padded 2 (clock % 60)
  ⟨nanoseconds, date ++ "T" ++ time ++ fraction (nanoseconds % 1000000000) ++ "Z"⟩

end Moment
end Clarion
