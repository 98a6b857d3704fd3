/-!
# Dates and times

The date and time values of settings files. They are never meaningful as settings, but they
are shown in messages: plainly, as the date and time of day with a UTC offset, and in full,
as the expression that builds them.
-/

namespace SourceGauge

/-- A day of the calendar. -/
structure Date where
  year : Nat
  month : Nat
  day : Nat
  deriving DecidableEq, Repr

/-- A time of day, to the microsecond. -/
structure TimeOfDay where
  hour : Nat
  minute : Nat
  second : Nat
  micro : Nat
  deriving DecidableEq, Repr

/-- A date, a time of day, or both with an optional offset from UTC in minutes. -/
inductive Moment
  | date (date : Date)
  | time (time : TimeOfDay)
  | dateTime (date : Date) (time : TimeOfDay) (offset : Option Int)
  deriving DecidableEq, Repr

/-- A number with leading zeros up to a width. -/
def zeroPadded (width n : Nat) : String :=
  let digits := Nat.toDigits 10 n
  String.ofList (List.replicate (width - digits.length) '0' ++ digits)

/-- Whether a year has a 29th of February. -/
def isLeapYear (year : Nat) : Bool := year % 4 == 0 && (year % 100 != 0 || year % 400 == 0)

/-- The number of days of a month. -/
def daysInMonth (year month : Nat) : Nat :=
  if month == 2 then (if isLeapYear year then 29 else 28)
  else if month == 4 || month == 6 || month == 9 || month == 11 then 30 else 31

/-- Whether a date is a day of the calendar; years start at one. -/
def Date.isValid (d : Date) : Bool :=
  1 ≤ d.year && 1 ≤ d.month && d.month ≤ 12 && 1 ≤ d.day && d.day ≤ daysInMonth d.year d.month

/-- A date as `year-month-day`. -/
def Date.plain (d : Date) : String :=
  zeroPadded 4 d.year ++ "-" ++ zeroPadded 2 d.month ++ "-" ++ zeroPadded 2 d.day

/-- A time as `hour:minute:second`, with six decimals if it has microseconds. -/
def TimeOfDay.plain (t : TimeOfDay) : String :=
  zeroPadded 2 t.hour ++ ":" ++ zeroPadded 2 t.minute ++ ":" ++ zeroPadded 2 t.second ++
    (if t.micro == 0 then "" else "." ++ zeroPadded 6 t.micro)

/-- An offset from UTC as signed hours and minutes. -/
def plainOffset (minutes : Int) : String :=
  (if minutes < 0 then "-" else "+") ++ zeroPadded 2 (minutes.natAbs / 60) ++ ":" ++
    zeroPadded 2 (minutes.natAbs % 60)

/-- The plain text of a moment. -/
def Moment.plain : Moment → String
  | .date d => d.plain
  | .time t => t.plain
  | .dateTime d t offset => d.plain ++ " " ++ t.plain ++ (offset.map plainOffset).getD ""

/-- The parts of a time, the microseconds and then the seconds left out when zero. -/
def TimeOfDay.parts (t : TimeOfDay) : List Nat :=
  if t.micro != 0 then [t.hour, t.minute, t.second, t.micro]
  else if t.second != 0 then [t.hour, t.minute, t.second]
  else [t.hour, t.minute]

/-- The expression for an offset: a whole number of days and the seconds beyond them. -/
def offsetExpression (minutes : Int) : String :=
  if minutes == 0 then "datetime.timezone.utc"
  else
    let days := if minutes < 0 then "days=-1, " else ""
    let seconds := (minutes * 60).emod 86400
    "datetime.timezone(datetime.timedelta(" ++ days ++ "seconds=" ++ toString seconds ++ "))"

/-- Numbers separated by commas. -/
def commaSeparated (parts : List Nat) : String :=
  String.intercalate ", " (parts.map toString)

/-- The expression that builds a moment. -/
def Moment.full : Moment → String
  | .date d => "datetime.date(" ++ commaSeparated [d.year, d.month, d.day] ++ ")"
  | .time t => "datetime.time(" ++ commaSeparated t.parts ++ ")"
  | .dateTime d t offset =>
    "datetime.datetime(" ++ commaSeparated ([d.year, d.month, d.day] ++ t.parts) ++
      (match offset with
        | some minutes => ", tzinfo=" ++ offsetExpression minutes
        | none => "") ++ ")"

/-- The name of the kind of a moment. -/
def Moment.typeName : Moment → String
  | .date _ => "datetime.date"
  | .time _ => "datetime.time"
  | .dateTime .. => "datetime.datetime"

end SourceGauge
