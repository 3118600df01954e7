import SchemaClasses.Decimal
import SchemaClasses.Validation.Draft

/-! Values as schemas compare them: numbers by what they are worth, however they are written. -/

namespace SchemaClasses

namespace Validation

/-- The worth of a number, as a numerator over a denominator. -/
def rational? : Json → Option (Int × Nat)
  | .integer n => some (n, 1)
  | .float x =>
    let (num, den) := x.ratio
    some (if x.negative then -num else num, den)
  | _ => none

/-- The order of two numbers. -/
def compareNumbers? (a b : Json) : Option Ordering := do
  let (x, xDen) ← rational? a
  let (y, yDen) ← rational? b
  return compare (x * yDen) (y * xDen)

mutual

/-- Equality of values; the members of objects must stand in one order. -/
def equal : Json → Json → Bool
  | .null, .null => true
  | .bool a, .bool b => a == b
  | .string a, .string b => a == b
  | .array a, .array b => equalItems a b
  | .object a, .object b => equalMembers a b
  | a, b => compareNumbers? a b == some .eq

/-- Item by item equality. -/
def equalItems : List Json → List Json → Bool
  | [], [] => true
  | a :: as, b :: bs => equal a b && equalItems as bs
  | _, _ => false

/-- Member by member equality. -/
def equalMembers : List (String × Json) → List (String × Json) → Bool
  | [], [] => true
  | (key, a) :: as, (other, b) :: bs => key == other && equal a b && equalMembers as bs
  | _, _ => false

end

mutual

/-- Equality of values as they are written: `1` and `1.0` differ, and so do the two zeros, while the
order of members does not matter. -/
def identical : Json → Json → Bool
  | .null, .null => true
  | .bool a, .bool b => a == b
  | .integer a, .integer b => a == b
  | .float a, .float b => a == b
  | .string a, .string b => a == b
  | .array a, .array b => identicalItems a b
  | .object a, .object b => a.length == b.length && identicalMembers a b
  | _, _ => false

/-- Item by item equality. -/
def identicalItems : List Json → List Json → Bool
  | [], [] => true
  | a :: as, b :: bs => identical a b && identicalItems as bs
  | _, _ => false

/-- Whether every member on the left has an equal one on the right. -/
def identicalMembers : List (String × Json) → List (String × Json) → Bool
  | [], _ => true
  | (key, a) :: rest, others =>
    (match others.lookup key with
      | some b => identical a b
      | none => false) && identicalMembers rest others

end

/-- Whether a relation holds between two items of a list. -/
def hasPair (related : Json → Json → Bool) : List Json → Bool
  | [] => false
  | item :: rest => rest.any (related item) || hasPair related rest

/-- Whether two items of a list are equal. In a long list, items are compared as they are
written. -/
def hasRepetition (items : List Json) : Bool :=
  hasPair (if items.length ≤ 15 then equal else identical) items

/-- Whether a value is the one that is expected; numbers are compared as doubles, up to the distance
from `1` to the next one. -/
def isConstant (expected value : Json) : Bool :=
  match expected.double?, value.double? with
  | some a, some b =>
    let unit := min a.exponent b.exponent
    let distance := (a.unitsOf unit - b.unitsOf unit).natAbs
    let (num, den) := Binary64.scaled distance 1 (-unit)
    num * fullSignificand < den
  | _, _ => equal expected value

/-- Whether a value is a whole number. -/
def isWhole : Json → Bool
  | .integer _ => true
  | .float x => x.isIntegral
  | _ => false

/-- Whether a value has the type of a name. Draft 4 takes a whole number for an integer only where
it is written as one. -/
def hasType (draft : Draft) (name : String) (value : Json) : Bool :=
  match name, value with
  | "null", .null | "boolean", .bool _ | "string", .string _ | "array", .array _
  | "object", .object _ | "number", .integer _ | "number", .float _
  | "integer", .integer _ => true
  | "integer", value => draft != .four && isWhole value
  | _, _ => false

/-- The names of types, in the order in which messages list them. -/
def typeNames : List String :=
  ["array", "boolean", "integer", "null", "number", "object", "string"]

/-- Whether a rounded quotient has a fractional part below the distance of `1` to the next double;
a negative one always has. -/
def isNearlyWhole (quotient : Binary64) : Bool :=
  let (num, den) := quotient.fraction
  num * fullSignificand < den

/-- The number of decimal places of the shortest digits of a number. -/
def decimalPlaces (x : Binary64) : Nat := (-x.shortest.2).toNat

/-- Whether a number is a multiple of another by their shortest digits. More decimal places than a
power of ten can express are not looked at. -/
def isDecimalMultiple (x divisor : Binary64) : Bool :=
  let places := max (decimalPlaces x) (decimalPlaces divisor)
  let units (number : Binary64) : Nat :=
    let (digits, exponent) := number.shortest
    digits * tenTo (exponent + places).toNat
  308 < places || units x % units divisor == 0

/-- Whether a number is a multiple of another. A whole divisor divides exactly; any other leaves
no more than rounding of the quotient explains, or is compared by its digits where the quotient is
out of range. -/
def isMultiple (x divisor : Binary64) : Bool :=
  let (num, den) := x.ratio
  let (divNum, divDen) := divisor.ratio
  let exact := num * divDen % (den * divNum) == 0
  if divisor.isIntegral then x.isIntegral && exact
  else match x.div? divisor with
    | some quotient => isNearlyWhole quotient
    | none => isDecimalMultiple x divisor

end Validation

end SchemaClasses
