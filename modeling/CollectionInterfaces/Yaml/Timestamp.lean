import CollectionInterfaces.Calendar

/-!
# Timestamps in YAML

A timestamp is a date, or a date with a time of day, a fraction of a second and an offset. The
parts are read as digits here; whether there is such a date is for the calendar to say.
-/

namespace CollectionInterfaces.Yaml

/-- The offset of a time from universal time. -/
inductive ZoneText
  | universal
  | offset (negative : Bool) (hours minutes : Text)
  deriving DecidableEq, Repr

structure TimeText where
  hour : Text
  minute : Text
  second : Text
  fraction : Text
  zone : Option ZoneText
  deriving DecidableEq, Repr

structure TimestampText where
  year : Text
  month : Text
  day : Text
  time : Option TimeText
  deriving DecidableEq, Repr

/-- At least `least` and at most `most` digits, and the text after them. -/
def cutDigits (least most : Nat) (t : Text) : Option (Text × Text) :=
  let digits := (t.take most).takeWhile CodePoint.isDigit
  if least ≤ digits.length then some (digits, t.drop digits.length) else none

def cutOne (c : CodePoint) : Text → Option Text
  | [] => none
  | d :: rest => if c = d then some rest else none

def dropBlanks (t : Text) : Text := t.dropWhile fun c => c = .ofChar ' ' || c = .ofChar '\t'

def readZone (t : Text) : Option ZoneText :=
  match t with
  | [] => none
  | c :: rest =>
    if c = .ofChar 'Z' then if rest.isEmpty then some .universal else none
    else if c = .ofChar '-' ∨ c = .ofChar '+' then do
      let (hours, rest) ← cutDigits 1 2 rest
      if rest.isEmpty then return .offset (c = .ofChar '-') hours []
      let (minutes, rest) ← cutDigits 2 2 (← cutOne ':' rest)
      if rest.isEmpty then return .offset (c = .ofChar '-') hours minutes else none
    else none

/-- A fraction of a second and the text after it. -/
def cutSecondFraction (t : Text) : Text × Text :=
  match cutOne '.' t with
  | some rest => (rest.takeWhile CodePoint.isDigit, rest.dropWhile CodePoint.isDigit)
  | none => ([], t)

/-- A time of day that the whole text is. -/
def readTime (t : Text) : Option TimeText := do
  let (hour, rest) ← cutDigits 1 2 t
  let (minute, rest) ← cutDigits 2 2 (← cutOne ':' rest)
  let (second, rest) ← cutDigits 2 2 (← cutOne ':' rest)
  let (fraction, rest) := cutSecondFraction rest
  if rest.isEmpty then return ⟨hour, minute, second, fraction, none⟩
  let zone ← readZone (dropBlanks rest)
  return ⟨hour, minute, second, fraction, some zone⟩

/-- What separates a time from a date is dropped: one letter, or blanks. -/
def cutTimeSeparator (t : Text) : Option Text :=
  match t with
  | [] => none
  | c :: rest =>
    if c = .ofChar 'T' ∨ c = .ofChar 't' then some rest
    else if c = .ofChar ' ' ∨ c = .ofChar '\t' then some (dropBlanks rest)
    else none

def readTimestamp (t : Text) : Option TimestampText := do
  let (year, rest) ← cutDigits 4 4 t
  let (month, rest) ← cutDigits 1 2 (← cutOne '-' rest)
  let (day, rest) ← cutDigits 1 2 (← cutOne '-' rest)
  if rest.isEmpty then return ⟨year, month, day, none⟩
  let time ← readTime (← cutTimeSeparator rest)
  return ⟨year, month, day, some time⟩

/-- A text that is a timestamp without being called one: a date alone needs all its digits. -/
def looksLikeTimestamp (t : Text) : Bool :=
  match readTimestamp t with
  | some s => s.time.isSome || (s.month.length == 2 && s.day.length == 2)
  | none => false

/-- The millionths of a second of the digits after a point. -/
def microseconds (fraction : Text) : Nat :=
  let digits := fraction.take 6
  Text.toNat (digits ++ Text.zeros (6 - digits.length))

def ZoneText.seconds : ZoneText → Int
  | .universal => 0
  | .offset negative hours minutes =>
    let seconds : Int := (hours.toNat * 3600 + minutes.toNat * 60 : Nat)
    if negative then -seconds else seconds

def TimestampText.toCalendar (s : TimestampText) : Except CalendarFault (Date ⊕ DateTime) :=
  match s.time with
  | none => (Date.ofNumbers s.year.toNat s.month.toNat s.day.toNat).map .inl
  | some time => do
    let offset ← (time.zone.map ZoneText.seconds).mapM DateTime.checkOffset
    let moment ← DateTime.ofNumbers s.year.toNat s.month.toNat s.day.toNat time.hour.toNat
      time.minute.toNat time.second.toNat (microseconds time.fraction) offset
    return .inr moment

end CollectionInterfaces.Yaml
