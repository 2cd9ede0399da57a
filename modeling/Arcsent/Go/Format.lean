/-
# Numbers and times as texts

The verb `%f` for a floating-point number and the layout `time.RFC3339` for a time.
-/
import Arcsent.Go.Float64
import Arcsent.Go.Parse

namespace Arcsent.Go

open Arcsent.Lib

/-- A number with zeros before it. -/
def zeroPad (width n : ℕ) : String := String.ofList (List.leftpad width '0' (Nat.toDigits 10 n))

/-- The verb `%f`: six digits after the point, the last one rounded to even. -/
def formatFloat (x : ℚ) : String :=
  let millionths := (nearestEven (|x| * 10 ^ 6)).toNat
  (if x < 0 then "-" else "") ++ toString (millionths / 10 ^ 6) ++ "." ++
    zeroPad 6 (millionths % 10 ^ 6)

/-- The verb `%.2f`. -/
def formatHundredths (x : ℚ) : String :=
  let hundredths := (nearestEven (|x| * 10 ^ 2)).toNat
  (if x < 0 then "-" else "") ++ toString (hundredths / 10 ^ 2) ++ "." ++
    zeroPad 2 (hundredths % 10 ^ 2)

/-- The seconds of a day. -/
def daySeconds : ℤ := 24 * 60 * 60

/-- The year, the month and the day of a number of days since the zero time. -/
def civilDate (days : ℤ) : ℤ × ℕ × ℕ :=
  -- days are counted from the first of March of the year 0, so that a leap day comes last
  let shifted := days + 306
  let day400 := (shifted % 146097).toNat
  let year400 := (day400 - day400 / 1460 + day400 / 36524 - day400 / 146096) / 365
  let dayOfYear := day400 - (365 * year400 + year400 / 4 - year400 / 100)
  let fromMarch := (5 * dayOfYear + 2) / 153
  let month := if fromMarch < 10 then fromMarch + 3 else fromMarch - 9
  let year := shifted / 146097 * 400 + year400
  (if month ≤ 2 then year + 1 else year, month, dayOfYear - (153 * fromMarch + 2) / 5 + 1)

/-- A year with at least four digits. -/
def yearText (year : ℤ) : String :=
  (if year < 0 then "-" else "") ++ zeroPad 4 year.natAbs

/-- The offset of a zone in minutes, as the layout writes it. -/
def zoneText (offset : ℤ) : String :=
  if offset = 0 then "Z"
  else
    (if offset < 0 then "-" else "+") ++ zeroPad 2 (offset.natAbs / 60) ++ ":" ++
      zeroPad 2 (offset.natAbs % 60)

/-- The layout `time.RFC3339`, in a zone with an offset of some minutes. -/
def rfc3339 (offset : ℤ) (t : Time) : String :=
  let seconds := t / second + offset * 60
  let (year, month, day) := civilDate (seconds / daySeconds)
  let clock := (seconds % daySeconds).toNat
  yearText year ++ "-" ++ zeroPad 2 month ++ "-" ++ zeroPad 2 day ++ "T" ++
    zeroPad 2 (clock / 3600) ++ ":" ++ zeroPad 2 (clock / 60 % 60) ++ ":" ++
    zeroPad 2 (clock % 60) ++ zoneText offset

example : rfc3339 (-90) (unixEpoch + 951827696 * second) = "2000-02-29T11:04:56-01:30" := by decide

end Arcsent.Go
