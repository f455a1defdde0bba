import CollectionInterfaces.Text.Decimal

/-!
# Dates and times

Dates of the Gregorian calendar, and dates with a time of day that may be tied to an offset from
universal time.
-/

namespace CollectionInterfaces

structure Date where
  year : Nat
  month : Nat
  day : Nat
  deriving DecidableEq, Repr

structure DateTime where
  date : Date
  hour : Nat
  minute : Nat
  second : Nat
  microsecond : Nat
  /-- The seconds that local time is ahead of universal time, if that is known. -/
  offset : Option Int
  deriving DecidableEq, Repr

/-- Why numbers do not make a date or a time. -/
inductive CalendarFault
  | year (year : Nat)
  | month
  | day
  | hour
  | minute
  | second
  /-- The offset, in seconds, is a day or more. -/
  | offset (seconds : Int)
  deriving DecidableEq, Repr

def isLeapYear (year : Nat) : Bool := year % 4 == 0 && (year % 100 != 0 || year % 400 == 0)

def daysInMonth (year month : Nat) : Nat :=
  if month = 2 then if isLeapYear year then 29 else 28
  else if month = 4 ∨ month = 6 ∨ month = 9 ∨ month = 11 then 30
  else 31

namespace Date

/-- The date of three numbers, or what is wrong with them. -/
def ofNumbers (year month day : Nat) : Except CalendarFault Date :=
  if year = 0 ∨ 9999 < year then .error (.year year)
  else if month = 0 ∨ 12 < month then .error .month
  else if day = 0 ∨ daysInMonth year month < day then .error .day
  else .ok ⟨year, month, day⟩

/-- The number of days in the first months of a year. -/
def daysOfMonths (year : Nat) : (months : Nat) → Nat
  | 0 => 0
  | months + 1 => daysOfMonths year months + daysInMonth year (months + 1)

/-- The number of days from the first day of year one. -/
def dayNumber (d : Date) : Nat :=
  let before := d.year - 1
  before * 365 + before / 4 - before / 100 + before / 400 +
    daysOfMonths d.year (d.month - 1) + (d.day - 1)

/-- Year, month and day with hyphens between them. -/
def toText (d : Date) : Text :=
  Text.ofNatPadded 4 d.year ++ "-" ++ Text.ofNatPadded 2 d.month ++ "-" ++
    Text.ofNatPadded 2 d.day

end Date

namespace DateTime

/-- The offset, if it is less than a day. -/
def checkOffset (seconds : Int) : Except CalendarFault Int :=
  if -86400 < seconds ∧ seconds < 86400 then .ok seconds else .error (.offset seconds)

/-- The date and time of numbers, or what is wrong with them. -/
def ofNumbers (year month day hour minute second microsecond : Nat) (offset : Option Int) :
    Except CalendarFault DateTime := do
  let date ← Date.ofNumbers year month day
  if 23 < hour then .error .hour
  else if 59 < minute then .error .minute
  else if 59 < second then .error .second
  else .ok ⟨date, hour, minute, second, microsecond, offset⟩

/-- The seconds from the first day of year one in universal time. -/
def instant (t : DateTime) : Int :=
  (t.date.dayNumber * 86400 + t.hour * 3600 + t.minute * 60 + t.second : Nat) - t.offset.getD 0

/-- Two times are the same moment: both without offset, or at one instant of universal time. -/
def sameMoment (a b : DateTime) : Bool :=
  a.offset.isSome == b.offset.isSome && a.instant == b.instant && a.microsecond == b.microsecond

/-- An offset as hours and minutes after a sign. -/
def offsetText (seconds : Int) : Text :=
  let total := seconds.natAbs
  (if seconds < 0 then ("-" : Text) else "+") ++ Text.ofNatPadded 2 (total / 3600) ++ ":" ++
    Text.ofNatPadded 2 (total % 3600 / 60)

/-- The date, a separator, and the time with its offset. -/
def toText (separator : Text) (t : DateTime) : Text :=
  t.date.toText ++ separator ++ Text.ofNatPadded 2 t.hour ++ ":" ++ Text.ofNatPadded 2 t.minute ++
    ":" ++ Text.ofNatPadded 2 t.second ++
    (if t.microsecond = 0 then ([] : Text) else .ofChar '.' :: Text.ofNatPadded 6 t.microsecond) ++
    (match t.offset with
      | some seconds => offsetText seconds
      | none => ([] : Text))

end DateTime

/-! ## Call notation

Inside a list or a message a date is shown as the call that makes it. -/

def callArguments (numbers : List Nat) : Text := Text.join ", " (numbers.map Text.ofNat)

/-- A duration in whole seconds as a call. -/
def durationCall (seconds : Int) : Text :=
  let days := Int.fdiv seconds 86400
  let rest := Int.fmod seconds 86400
  let parts : List Text :=
    (if days = 0 then [] else ["days=" ++ Text.ofInt days]) ++
      (if rest = 0 then [] else ["seconds=" ++ Text.ofInt rest])
  "datetime.timedelta(" ++ (if parts.isEmpty then ("0" : Text) else Text.join ", " parts) ++ ")"

def Date.call (d : Date) : Text :=
  "datetime.date(" ++ callArguments [d.year, d.month, d.day] ++ ")"

/-- The zone of an offset as a call. -/
def zoneCall (seconds : Int) : Text :=
  if seconds = 0 then "datetime.timezone.utc"
  else "datetime.timezone(" ++ durationCall seconds ++ ")"

/-- A date with a time as a call. Seconds and millionths are left out when they are zero. -/
def DateTime.call (t : DateTime) : Text :=
  let numbers :=
    [t.date.year, t.date.month, t.date.day, t.hour, t.minute] ++
      (if t.microsecond ≠ 0 then [t.second, t.microsecond]
        else if t.second ≠ 0 then [t.second] else [])
  "datetime.datetime(" ++ callArguments numbers ++
    (match t.offset with
      | some seconds => (", tzinfo=" : Text) ++ zoneCall seconds
      | none => []) ++ ")"

/-- What is wrong with the numbers of a date. -/
def CalendarFault.message : CalendarFault → Text
  | .year y => "year " ++ Text.ofNat y ++ " is out of range"
  | .month => "month must be in 1..12"
  | .day => "day is out of range for month"
  | .hour => "hour must be in 0..23"
  | .minute => "minute must be in 0..59"
  | .second => "second must be in 0..59"
  | .offset s =>
    "offset must be a timedelta strictly between -timedelta(hours=24) and timedelta(hours=24), not "
      ++ durationCall s ++ "."

end CollectionInterfaces
