/-! Finite double-precision numbers as exact scaled integers, with rounding to the nearest of them. -/

namespace SchemaClasses

/-- A power of two. -/
def twoTo (n : Nat) : Nat := Nat.pow 2 n

/-- A power of ten. -/
def tenTo (n : Nat) : Nat := Nat.pow 10 n

/-- The least significand of full width, `2^52`. -/
def fullSignificand : Nat := 0x10000000000000

/-- A finite double `±significand · 2^exponent` in its only form, with an odd significand or as
zero. -/
structure Binary64 where
  negative : Bool
  significand : Nat
  exponent : Int
  canonical : significand % 2 = 1 ∨ significand = 0 ∧ exponent = 0
deriving DecidableEq, Repr

namespace Binary64

/-- Zero with the given sign. -/
def zero (negative : Bool) : Binary64 := ⟨negative, 0, 0, .inr ⟨rfl, rfl⟩⟩

instance : Inhabited Binary64 := ⟨zero false⟩

/-- Factors of two move from the significand into the exponent. -/
def normalize (negative : Bool) (significand : Nat) (exponent : Int) : Binary64 :=
  if h : significand = 0 then zero negative
  else if odd : significand % 2 = 1 then ⟨negative, significand, exponent, .inl odd⟩
  else normalize negative (significand / 2) (exponent + 1)
termination_by significand
decreasing_by omega

/-- The magnitude as a numerator over a denominator. -/
def ratio (x : Binary64) : Nat × Nat :=
  if 0 ≤ x.exponent then (x.significand * twoTo x.exponent.toNat, 1)
  else (x.significand, twoTo (-x.exponent).toNat)

/-- The whole number nearest to a quotient, a half going to the even neighbour. -/
def roundHalfEven (num den : Nat) : Nat :=
  let quotient := num / den
  let rest := 2 * (num % den)
  if rest < den then quotient
  else if den < rest then quotient + 1
  else quotient + quotient % 2

/-- `num / den` counted in units of `2^exponent`. -/
def scaled (num den : Nat) (exponent : Int) : Nat × Nat :=
  if 0 ≤ exponent then (num, den * twoTo exponent.toNat)
  else (num * twoTo (-exponent).toNat, den)

/-- The exponent of the last bit that a double near `num / den` can hold. -/
def unitExponent (num den : Nat) : Int :=
  let estimate : Int := (Nat.log2 num : Int) - Nat.log2 den - 52
  let (n, d) := scaled num den estimate
  -- The estimate is at most one too high.
  max (if n < d * fullSignificand then estimate - 1 else estimate) (-1074)

/-- The double nearest to `±num / den`, or nothing when it lies beyond the largest one. -/
def ofRatio? (negative : Bool) (num den : Nat) : Option Binary64 :=
  if num = 0 ∨ den = 0 then some (zero negative)
  else
    let exponent := unitExponent num den
    let (n, d) := scaled num den exponent
    let significand := roundHalfEven n d
    -- The rounded significand has at most 54 bits, so this is the test against `2^1024`.
    if 1024 ≤ exponent + Nat.log2 significand then none
    else some (normalize negative significand exponent)

/-- The double nearest to a whole number; whole numbers of 64 bits are never out of range. -/
def ofInt (n : Int) : Binary64 :=
  (ofRatio? (decide (n < 0)) n.natAbs 1).getD (zero false)

/-- The rounded product, or nothing when it is out of range. -/
def mul? (x y : Binary64) : Option Binary64 :=
  ofRatio? (x.negative != y.negative) (x.ratio.1 * y.ratio.1) (x.ratio.2 * y.ratio.2)

/-- The rounded quotient by a nonzero divisor, or nothing when it is out of range. -/
def div? (x y : Binary64) : Option Binary64 :=
  ofRatio? (x.negative != y.negative) (x.ratio.1 * y.ratio.2) (x.ratio.2 * y.ratio.1)

/-- The double nearest to `10^n`. -/
def powerOfTen (n : Nat) : Binary64 :=
  (ofRatio? false (tenTo n) 1).getD (zero false)

/-- Division by `10^n`, in steps of at most `10^308`, each of them rounded. -/
def scaleDown (x : Binary64) (n : Nat) : Binary64 :=
  if n ≤ 308 ∨ x.significand = 0 then (x.div? (powerOfTen n)).getD x
  else scaleDown ((x.div? (powerOfTen 308)).getD x) (n - 308)
termination_by n

/-- The number written with these digits and this power of ten: the digits are rounded first and
the scaled value again; nothing when it is out of range. -/
def ofDecimal? (negative : Bool) (digits : Nat) (exponent : Int) : Option Binary64 := do
  let rounded ← ofRatio? negative digits 1
  if rounded.significand = 0 then return zero negative
  if exponent < 0 then return scaleDown rounded (-exponent).toNat
  if 308 < exponent then none
  rounded.mul? (powerOfTen exponent.toNat)

/-- The value in units of `2^unit`, exact when `unit` is no larger than the exponent. -/
def unitsOf (x : Binary64) (unit : Int) : Int :=
  let magnitude : Int := x.significand * twoTo (x.exponent - unit).toNat
  if x.negative then -magnitude else magnitude

/-- Numeric order; the two zeros are equal. -/
def cmp (x y : Binary64) : Ordering :=
  let unit := min x.exponent y.exponent
  compare (x.unitsOf unit) (y.unitsOf unit)

/-- Numeric equality, under which the two zeros are equal. -/
def equals (x y : Binary64) : Bool := x.cmp y == .eq

/-- Whether there is no fractional part. -/
def isIntegral (x : Binary64) : Bool := x.significand = 0 ∨ 0 ≤ x.exponent

/-- The largest whole number not above the value. -/
def floor (x : Binary64) : Int :=
  let (num, den) := x.ratio
  if x.negative then -((num + den - 1) / den : Nat) else (num / den : Nat)

/-- The smallest whole number not below the value. -/
def ceil (x : Binary64) : Int :=
  let (num, den) := x.ratio
  if x.negative then -(num / den : Nat) else ((num + den - 1) / den : Nat)

/-- The value with its fractional part dropped. -/
def trunc (x : Binary64) : Int := if x.negative then x.ceil else x.floor

/-- The fractional part, with the sign of the value, as a numerator over a denominator. -/
def fraction (x : Binary64) : Int × Nat :=
  let (num, den) := x.ratio
  (if x.negative then -((num % den : Nat) : Int) else (num % den : Nat), den)

end Binary64

end SchemaClasses
