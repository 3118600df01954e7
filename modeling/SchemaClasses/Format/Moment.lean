import SchemaClasses.Text.Segments

/-! Dates and times of the day. -/

namespace SchemaClasses

/-- A number of a fixed width. -/
def fixedNumber? (width : Nat) (digits : List Char) : Option Nat :=
  if digits.length == width && digits.all Char.isDigit then
    some (digits.foldl (fun n c => n * 10 + (c.toNat - '0'.toNat)) 0)
  else none

/-- The number of days in a month. -/
def daysIn (year month : Nat) : Nat :=
  if month == 2 then
    if year % 4 == 0 && (year % 100 != 0 || year % 400 == 0) then 29 else 28
  else if month ∈ [4, 6, 9, 11] then 30
  else 31

/-- A day of the calendar. -/
structure CalendarDate where
  year : Nat
  month : Nat
  day : Nat

/-- Whether the month has the day. -/
def CalendarDate.exists (date : CalendarDate) : Bool :=
  1 ≤ date.month && date.month ≤ 12 && 1 ≤ date.day && date.day ≤ daysIn date.year date.month

/-- Year, month and day between hyphens. -/
def calendarDate? (text : List Char) : Option CalendarDate :=
  match cut '-' text with
  | [year, month, day] => do
    let date : CalendarDate :=
      ⟨← fixedNumber? 4 year, ← fixedNumber? 2 month, ← fixedNumber? 2 day⟩
    if date.exists then some date else none
  | _ => none

/-- A date. -/
def isDate (text : String) : Bool := (calendarDate? text.toList).isSome

/-- The minutes from midnight on that hours and minutes of the day stand for. -/
def minuteOfDay? (text : List Char) : Option Nat :=
  match cut ':' text with
  | [hour, minute] => do
    let hour ← fixedNumber? 2 hour
    let minute ← fixedNumber? 2 minute
    if hour ≤ 23 ∧ minute ≤ 59 then some (hour * 60 + minute) else none
  | _ => none

/-- The distance from universal time in minutes. -/
def offset? (signs : List Char) : List Char → Option Int
  | ['Z'] | ['z'] => some 0
  | sign :: rest =>
    if sign ∈ signs then
      (minuteOfDay? rest).map fun minutes => if sign = '-' then -(minutes : Int) else minutes
    else none
  | [] => none

/-- A time of the day with a distance from universal time. -/
structure Clock where
  minute : Nat
  second : Nat
  /-- The number of digits behind the second, where there is a point. -/
  fraction : Option Nat
  offset : Int

/-- Hours, minutes and seconds with a distance from universal time. -/
def clock? (signs text : List Char) : Option Clock := do
  let minute ← minuteOfDay? (text.take 5)
  if text[5]? ≠ some ':' then none
  let second ← fixedNumber? 2 ((text.drop 6).take 2)
  match text.drop 8 with
  | '.' :: rest =>
    let digits := rest.takeWhile Char.isDigit
    return ⟨minute, second, some digits.length, ← offset? signs (rest.drop digits.length)⟩
  | rest => return ⟨minute, second, none, ← offset? signs rest⟩

/-- A time with six digits behind the second, or none. A bar may stand for a sign. -/
def isTime (text : String) : Bool :=
  (clock? ['+', '-', '|'] text.toList).any fun clock =>
    clock.second ≤ 59 && clock.fraction.all (· == 6)

/-- Whether the last minute of a month of universal time contains a time of a day. -/
def endsMonth (date : CalendarDate) (clock : Clock) : Bool :=
  let minute : Int := clock.minute - clock.offset
  let lastDay := daysIn date.year date.month
  -- By universal time it may be the day before, or the day behind.
  if minute < 0 then date.day == 1 && minute + 1440 == 1439
  else if minute < 1440 then date.day == lastDay && minute == 1439
  else date.day + 1 == lastDay && minute - 1440 == 1439

/-- A date and a time, with one character between them. There is a second too many in a minute only
where it may be needed. -/
def isDateTime (text : String) : Bool :=
  let letters := text.toList
  match calendarDate? (letters.take 10), letters[10]?, clock? ['+', '-'] (letters.drop 11) with
  | some date, some separator, some clock =>
    separator.toNat < 0x80 && clock.fraction.all (0 < ·)
      && (clock.second ≤ 59 || (clock.second == 60 && endsMonth date clock))
  | _, _, _ => false

end SchemaClasses
