import Parley.Number.Text
import Parley.Text.Blank
set_option autoImplicit false

/-! # Dates in words

A moment is a date and a time of day on the Gregorian calendar, in a time zone or in none. It is
written with the English names of weekday and month, a clock of twelve hours, and the name of the
zone. A zone without a name of its own is named for its offset. -/

namespace Parley

/-- A time zone, or none. -/
inductive Zone
  | none
  | named (name : String)
  /-- An offset from UTC in seconds. -/
  | offset (seconds : Int)
deriving DecidableEq

/-- A date and a time of day. -/
structure Moment where
  year : Nat
  month : Nat
  day : Nat
  hour : Nat
  minute : Nat
  second : Nat
  zone : Zone
deriving DecidableEq

namespace Calendar

/-- The days of the week. -/
def weekdays : List String :=
  ["Monday", "Tuesday", "Wednesday", "Thursday", "Friday", "Saturday", "Sunday"]

/-- The months of the year. -/
def months : List String :=
  ["January", "February", "March", "April", "May", "June", "July", "August", "September",
    "October", "November", "December"]

/-- Every fourth year is a leap year, of the centuries every fourth one. -/
def isLeap (year : Nat) : Bool :=
  year % 4 == 0 && (year % 100 != 0 || year % 400 == 0)

/-- The days of the months of a year. -/
def monthLengths (year : Nat) : List Nat :=
  [31, if isLeap year then 29 else 28, 31, 30, 31, 30, 31, 31, 30, 31, 30, 31]

/-- The number of a day, where the first day of the year 1 has number zero. -/
def dayNumber (year month day : Nat) : Nat :=
  let before := year - 1
  let years := 365 * before + before / 4 - before / 100 + before / 400
  years + ((monthLengths year).take (month - 1)).foldl (· + ·) 0 + (day - 1)

/-- The day of the week; the first day of the year 1 was a Monday. -/
def weekday (year month day : Nat) : String :=
  weekdays.getD (dayNumber year month day % 7) ""

/-- Two digits at least. -/
def twoDigits (n : Nat) : String :=
  if n < 10 then "0" ++ decimalText n else decimalText n

/-- The name of a zone. Seconds are stated only where an offset has some. -/
def zoneName : Zone → String
  | .none => ""
  | .named name => name
  | .offset seconds =>
      if seconds = 0 then "UTC" else
        let size := seconds.natAbs
        let sign := if seconds < 0 then "-" else "+"
        let rest := if size % 60 = 0 then "" else ":" ++ twoDigits (size % 60)
        "UTC" ++ sign ++ twoDigits (size / 3600) ++ ":" ++ twoDigits (size / 60 % 60) ++ rest

/-- The hour on a clock of twelve hours. -/
def clockHour (hour : Nat) : Nat :=
  if hour % 12 = 0 then 12 else hour % 12

/-- A moment in words, without blanks at its ends. -/
def words (m : Moment) : String :=
  let date := weekday m.year m.month m.day ++ ", " ++ months.getD (m.month - 1) "" ++ " "
    ++ twoDigits m.day ++ ", " ++ decimalText m.year
  let time := twoDigits (clockHour m.hour) ++ ":" ++ twoDigits m.minute
    ++ (if m.hour < 12 then " AM" else " PM")
  let line := date ++ " " ++ time ++ " " ++ zoneName m.zone
  String.ofList (Text.trim Text.isLineBlank line.toList)

end Calendar

end Parley
