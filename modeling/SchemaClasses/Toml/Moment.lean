import SchemaClasses.Decimal.Reader

/-! Dates and times of TOML, read and written in one form. -/

namespace SchemaClasses

namespace Toml

/-- Two digits behind one another, as a number in a range. -/
def twoDigits? (low high : Nat) : List Char → Option (Nat × List Char)
  | a :: b :: rest =>
    if a.isDigit && b.isDigit then
      let n := numberOf 10 [a, b]
      if low ≤ n ∧ n ≤ high then some (n, rest) else none
    else none
  | _ => none

/-- A number with at least some digits. -/
def padded (width n : Nat) : String :=
  let digits := Nat.toDigits 10 n
  String.ofList (List.replicate (width - digits.length) '0' ++ digits)

/-- The number of days of a month. -/
def daysOf (year month : Nat) : Nat :=
  if month = 2 then
    if year % 4 = 0 ∧ (year % 100 ≠ 0 ∨ year % 400 = 0) then 29 else 28
  else if month ∈ [4, 6, 9, 11] then 30
  else 31

/-- A reading that begins like a date or a time: it ends well, it is no such thing at all, or it is
one with a fault. -/
inductive Attempt (α : Type) where
  | found (value : α) (rest : List Char)
  | other
  | faulty

/-- A date. -/
def date (text : List Char) : Attempt String :=
  let year := text.take 4
  if year.length < 4 || !year.all Char.isDigit then .other
  else match text.drop 4 with
    | '-' :: rest =>
      match twoDigits? 1 12 rest with
      | some (month, '-' :: rest) =>
        let year := numberOf 10 year
        match twoDigits? 1 (daysOf year month) rest with
        | some (day, rest) =>
          .found (padded 4 year ++ "-" ++ padded 2 month ++ "-" ++ padded 2 day) rest
        | none => .faulty
      | _ => .faulty
    | _ => .other

/-- Decimal places of a second, of which nine are kept and zeros at the end are not shown. -/
def secondPlaces (digits : List Char) : String :=
  let kept := ((digits.take 9).reverse.dropWhile (· == '0')).reverse
  if kept.isEmpty then "" else "." ++ String.ofList kept

/-- The time of a day. -/
def time (text : List Char) : Attempt String :=
  match twoDigits? 0 23 text with
  | some (hour, ':' :: rest) =>
    match twoDigits? 0 59 rest with
    | some (minute, ':' :: rest) =>
      match twoDigits? 0 60 rest with
      | some (second, rest) =>
        let shown := padded 2 hour ++ ":" ++ padded 2 minute ++ ":" ++ padded 2 second
        match rest with
        | '.' :: fraction =>
          let digits := fraction.takeWhile Char.isDigit
          if digits.isEmpty then .found shown rest
          else .found (shown ++ secondPlaces digits) (fraction.drop digits.length)
        | rest => .found shown rest
      | none => .faulty
    | _ => .faulty
  | _ => .other

/-- The distance of a time from the time of the zero meridian. -/
def offset : List Char → Attempt String
  | 'Z' :: rest | 'z' :: rest => .found "Z" rest
  | sign :: text =>
    if sign == '+' || sign == '-' then
      match twoDigits? 0 23 text with
      | some (hours, ':' :: rest) =>
        match twoDigits? 0 59 rest with
        | some (minutes, rest) =>
          -- A distance of nothing has no direction.
          let shown := if hours = 0 ∧ minutes = 0 then '+' else sign
          .found (shown.toString ++ padded 2 hours ++ ":" ++ padded 2 minutes) rest
        | none => .faulty
      | _ => .faulty
    else .other
  | [] => .other

/-- A date with or without a time, or a time alone. -/
def moment (text : List Char) : Attempt String :=
  match date text with
  | .faulty => .faulty
  | .other => time text
  | .found day rest =>
    match rest with
    | separator :: behind =>
      if separator ∈ ['T', 't', ' '] then
        match time behind with
        | .faulty => .faulty
        | .other => .found day rest
        | .found hour rest =>
          let shown := day ++ "T" ++ hour
          match offset rest with
          | .faulty => .faulty
          | .other => .found shown rest
          | .found distance rest => .found (shown ++ distance) rest
      else .found day rest
    | [] => .found day []

end Toml

end SchemaClasses
