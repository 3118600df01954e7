import SchemaClasses.Decimal
import SchemaClasses.Json

/-! The numbers written in schema keywords: whole where the document says a whole number. -/

namespace SchemaClasses

/-- The smallest signed 64-bit number. -/
def minSigned : Int := -0x8000000000000000

/-- The largest signed 64-bit number. -/
def maxSigned : Int := 0x7FFFFFFFFFFFFFFF

/-- The nearest signed 64-bit number. -/
def clampSigned (n : Int) : Int := max minSigned (min maxSigned n)

/-- Whether a whole number fits a signed 32-bit word. -/
def fitsInt32 (n : Int) : Bool := -0x80000000 ≤ n && n < 0x80000000

/-- A keyword's number; a decimal has a fractional part or a magnitude of at least `9.2e18`. -/
inductive Quantity where
  | whole (value : Int)
  | decimal (value : Binary64)
deriving DecidableEq, Repr, Inhabited

namespace Quantity

/-- Whether a double is a whole number that is safely inside the signed 64-bit range. -/
def isSafelyWhole (x : Binary64) : Bool :=
  x.isIntegral && x.trunc.natAbs < 9200000000000000000

/-- The number of a JSON value; `3.0` and `3` are the same number. -/
def ofJson? (value : Json) : Option Quantity :=
  match value.signed? with
  | some n => some (whole n)
  | none => value.double?.map fun x => if isSafelyWhole x then whole x.trunc else decimal x

/-- The value as a double, rounded if need be. -/
def toBinary64 : Quantity → Binary64
  | whole n => .ofInt n
  | decimal x => x

/-- Whole numbers compare exactly with each other, and as doubles with decimals. -/
def cmp : Quantity → Quantity → Ordering
  | whole a, whole b => compare a b
  | a, b => a.toBinary64.cmp b.toBinary64

/-- The whole number that this is, if it is one. -/
def integral? : Quantity → Option Int
  | whole n => some n
  | decimal x => if isSafelyWhole x then some x.trunc else none

/-- The smallest signed 64-bit number not below the value, or the nearest there is. -/
def ceil : Quantity → Int
  | whole n => n
  | decimal x => clampSigned x.ceil

/-- The largest signed 64-bit number not above the value, or the nearest there is. -/
def floor : Quantity → Int
  | whole n => n
  | decimal x => clampSigned x.floor

/-- Whether the value without its fractional part fits a signed 32-bit word. -/
def fitsInt32 (q : Quantity) : Bool :=
  match q.integral? with
  | some n => SchemaClasses.fitsInt32 n
  | none => SchemaClasses.fitsInt32 q.toBinary64.trunc

/-- Plain decimal text. -/
def text : Quantity → String
  | whole n => toString n
  | decimal x => DecimalLayout.plain.render x

/-- The JSON number. -/
def toJson : Quantity → Json
  | whole n => .integer n
  | decimal x => .float x

end Quantity

/-! Numeric bounds, their tightest combination, and the whole numbers they admit. -/

/-- The end of a range that a bound closes. -/
inductive Side where
  | minimum
  | maximum
deriving DecidableEq, Repr

/-- A bound on a number, which may exclude its own value. -/
structure Bound where
  value : Quantity
  exclusive : Bool
deriving DecidableEq, Repr, Inhabited

namespace Bound

/-- The bound that admits its own value. -/
def inclusive (value : Quantity) : Bound := ⟨value, false⟩

/-- The tighter of two lower bounds; at one value the exclusive bound wins. -/
def tighterMinimum (current : Option Bound) (incoming : Bound) : Bound :=
  match current with
  | none => incoming
  | some held =>
    if incoming.value.cmp held.value == .gt then incoming
    else if incoming.value = held.value ∧ incoming.exclusive then incoming
    else held

/-- The tighter of two upper bounds; at one value the exclusive bound wins. -/
def tighterMaximum (current : Option Bound) (incoming : Bound) : Bound :=
  match current with
  | none => incoming
  | some held =>
    if incoming.value.cmp held.value == .lt then incoming
    else if incoming.value = held.value ∧ incoming.exclusive then incoming
    else held

/-- The smallest whole number that satisfies the bound from above, within 64 bits. -/
def leastInteger (b : Bound) : Int :=
  if b.exclusive then clampSigned (b.value.floor + 1) else b.value.ceil

/-- The largest whole number that satisfies the bound from below, within 64 bits. -/
def greatestInteger (b : Bound) : Int :=
  if b.exclusive then clampSigned (b.value.ceil - 1) else b.value.floor

/-- The JSON form. -/
def toJson (b : Bound) : Json :=
  .object [("value", b.value.toJson), ("exclusive", .bool b.exclusive)]

end Bound

end SchemaClasses
