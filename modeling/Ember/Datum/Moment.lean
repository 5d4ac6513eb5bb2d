import Ember.Text.Digit

/-!
# Dates and moments

A day of the calendar, and a moment of such a day with an optional offset from
the common time. A day or time that does not exist has a `CalendarFault`.
-/

namespace Ember

/-- A day of the calendar. -/
structure Date where
  year : Nat
  month : Nat
  day : Nat
deriving DecidableEq, Repr, Inhabited

/-- A moment: a day, a time of it, and the offset from the common time in minutes. -/
structure Moment where
  date : Date
  hour : Nat
  minute : Nat
  second : Nat
  microsecond : Nat := 0
  offset : Option Int := none
deriving DecidableEq, Repr, Inhabited

/-- Why a day or a time does not exist. -/
inductive CalendarFault where
  | year (value : Nat)
  | month
  | day
  | hour
  | minute
  | second
  /-- An offset, in minutes, of a whole day or more. -/
  | offset (value : Int)
deriving DecidableEq, Repr

/-- A stretch of time, given in minutes, in whole days and the seconds beyond. -/
def durationText (minutes : Int) : String :=
  let seconds := 60 * minutes
  let (days, rest) := (seconds.fdiv 86400, seconds.fmod 86400)
  let parts := (if days = 0 then [] else ["days=" ++ toString days]) ++
    (if rest = 0 then [] else ["seconds=" ++ toString rest])
  "datetime.timedelta(" ++ (if parts.isEmpty then "0" else ", ".intercalate parts) ++ ")"

/-- The text of a calendar fault. -/
def CalendarFault.message : CalendarFault → String
  | year value => "year " ++ toString value ++ " is out of range"
  | month => "month must be in 1..12"
  | day => "day is out of range for month"
  | hour => "hour must be in 0..23"
  | minute => "minute must be in 0..59"
  | second => "second must be in 0..59"
  | offset value =>
    "offset must be a timedelta strictly between -timedelta(hours=24) and " ++
      "timedelta(hours=24), not " ++
      durationText value

/-- Whether a year has a day more. -/
def isLeapYear (year : Nat) : Bool :=
  year % 4 = 0 && (year % 100 != 0 || year % 400 = 0)

/-- How many days a month has. -/
def daysInMonth (year month : Nat) : Nat :=
  match month with
  | 2 => if isLeapYear year then 29 else 28
  | 4 | 6 | 9 | 11 => 30
  | _ => 31

namespace Date

/-- The day, if there is such a day. -/
def checked (d : Date) : Except CalendarFault Date :=
  if d.year < 1 then .error (.year d.year)
  else if d.month < 1 ∨ 12 < d.month then .error .month
  else if d.day < 1 ∨ daysInMonth d.year d.month < d.day then .error .day
  else .ok d

/-- The numbers of a day. -/
def parts (d : Date) : List Nat :=
  [d.year, d.month, d.day]

/-- The day as text. -/
def render (d : Date) : String :=
  "datetime.date(" ++ ", ".intercalate (d.parts.map toString) ++ ")"

end Date

namespace Moment

/-- The moment, if there is such a moment. -/
def checked (m : Moment) : Except CalendarFault Moment :=
  match m.offset with
  | some offset => if 24 * 60 ≤ offset.natAbs then .error (.offset offset) else rest
  | none => rest
where
  rest : Except CalendarFault Moment := do
    let _ ← m.date.checked
    if 24 ≤ m.hour then .error .hour
    else if 60 ≤ m.minute then .error .minute
    else if 60 ≤ m.second then .error .second
    else .ok m

/-- The offset as text. -/
def offsetText (offset : Int) : String :=
  if offset = 0 then "datetime.timezone.utc"
  else "datetime.timezone(" ++ durationText offset ++ ")"

/-- How deeply the offset of a moment is nested in its text. -/
def offsetLevels (m : Moment) : Nat :=
  match m.offset with
  | none => 0
  | some offset => if offset = 0 then 1 else 2

/-- The moment as text; seconds and parts of them are left out when they are zero. -/
def render (m : Moment) : String :=
  let seconds :=
    if m.microsecond ≠ 0 then [m.second, m.microsecond]
    else if m.second ≠ 0 then [m.second]
    else []
  let zone := (m.offset.map fun offset => "tzinfo=" ++ offsetText offset).toList
  "datetime.datetime(" ++
    ", ".intercalate ((m.date.parts ++ [m.hour, m.minute] ++ seconds).map toString ++ zone) ++ ")"

end Moment

end Ember
