/-!
# Moments

A moment counts seconds from the start of 1970.  Records carry it as a date with a time of day,
archives as digits alone.
-/

namespace Roster

/-- Seconds since the start of 1970. -/
abbrev Moment := Int

/-- A day of the calendar. -/
structure Day where
  year : Int
  month : Nat
  day : Nat
  deriving DecidableEq, Repr

namespace Moment

/-- The day that comes a number of days after the start of 1970. Years are counted from March on,
in cycles of four centuries. -/
def dayOf (days : Int) : Day :=
  let shifted := days + 719468
  let cycle := shifted.fdiv 146097
  let dayOfCycle := (shifted - cycle * 146097).toNat
  let yearOfCycle :=
    (dayOfCycle - dayOfCycle / 1460 + dayOfCycle / 36524 - dayOfCycle / 146096) / 365
  let dayOfYear := dayOfCycle - (365 * yearOfCycle + yearOfCycle / 4 - yearOfCycle / 100)
  let march := (5 * dayOfYear + 2) / 153
  let month := if march < 10 then march + 3 else march - 9
  ⟨yearOfCycle + cycle * 400 + (if month ≤ 2 then 1 else 0), month,
    dayOfYear - (153 * march + 2) / 5 + 1⟩

/-- A number with zeros in front up to a width. -/
def padded (width n : Nat) : String :=
  let digits := Nat.toDigits 10 n
  String.ofList (List.replicate (width - digits.length) '0' ++ digits)

/-- Year, month, day, hour, minute and second as texts of fixed width. -/
def texts (m : Moment) : List String :=
  let day := dayOf (m.fdiv 86400)
  let second := (m.fmod 86400).toNat
  [padded 4 day.year.toNat, padded 2 day.month, padded 2 day.day,
    padded 2 (second / 3600), padded 2 (second / 60 % 60), padded 2 (second % 60)]

/-- Date and time of day as records carry them. -/
def stamp (m : Moment) : String :=
  match m.texts with
  | [year, month, day, hour, minute, second] =>
      year ++ "-" ++ month ++ "-" ++ day ++ " " ++ hour ++ ":" ++ minute ++ ":" ++ second
  | _ => ""

/-- Date and time of day as archives carry them. -/
def archiveStamp (m : Moment) : String :=
  match m.texts with
  | [year, month, day, hour, minute, second] =>
      year ++ month ++ day ++ "_" ++ hour ++ minute ++ second
  | _ => ""

end Moment
end Roster
