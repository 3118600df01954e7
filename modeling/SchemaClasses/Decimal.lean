import SchemaClasses.Binary64

/-! Shortest decimal digits of a double, and the layouts in which they are written. -/

namespace SchemaClasses

/-- The number of decimal digits of a positive whole number. -/
def decimalWidth (n : Nat) : Nat := (Nat.toDigits 10 n).length

/-- The least `k` with `num / den < 10^k`, for a positive quotient. -/
def pointPosition (num den : Nat) : Int :=
  if den ≤ num then decimalWidth (num / den)
  else
    -- The widths fix the answer up to one place.
    let shift := decimalWidth den - decimalWidth num
    if den ≤ num * tenTo shift then 1 - (shift : Int) else -(shift : Int)

namespace Binary64

/-- The significand with all bits that a double of this size has, and the exponent of the last. -/
def widened (x : Binary64) : Nat × Int :=
  let room : Int := min (52 - (Nat.log2 x.significand : Int)) (x.exponent + 1074)
  (x.significand * twoTo room.toNat, x.exponent - room)

/-- The reals that round to a number, as numerators over one denominator. -/
structure Rounding where
  low : Nat
  value : Nat
  high : Nat
  denominator : Nat
  inclusive : Bool

/-- The interval of a positive number; below a power of two the neighbour is half as far. -/
def rounding (x : Binary64) : Rounding :=
  let (significand, exponent) := x.widened
  let below := if significand = fullSignificand ∧ -1074 < exponent then 1 else 2
  let up := twoTo (exponent - 2).toNat
  { low := (4 * significand - below) * up
    value := 4 * significand * up
    high := (4 * significand + 2) * up
    denominator := twoTo (2 - exponent).toNat
    inclusive := significand % 2 = 0 }

/-- Whether `digits · 10^exponent` rounds to the number. -/
def Rounding.admits (r : Rounding) (digits : Nat) (exponent : Int) : Bool :=
  let point := digits * tenTo exponent.toNat * r.denominator
  let unit := tenTo (-exponent).toNat
  if r.inclusive then r.low * unit ≤ point && point ≤ r.high * unit
  else r.low * unit < point && point < r.high * unit

/-- Twice the distance of the value above `digits · 10^exponent`, and the distance of two grid
points, in a common unit. -/
def Rounding.excess (r : Rounding) (digits : Nat) (exponent : Int) : Nat × Nat :=
  let unit := tenTo (-exponent).toNat
  let step := tenTo exponent.toNat * r.denominator
  (2 * (r.value * unit - digits * step), step)

/-- The best point of the grid of multiples of `10^exponent` that rounds to the number, if any. -/
def Rounding.onGrid (r : Rounding) (exponent : Int) : Option Nat :=
  let unit := tenTo (-exponent).toNat
  let step := tenTo exponent.toNat * r.denominator
  let under := r.value * unit / step
  match r.admits under exponent, r.admits (under + 1) exponent with
  | false, false => none
  | true, false => some under
  | false, true => some (under + 1)
  | true, true =>
    let (twice, gap) := r.excess under exponent
    if twice < gap then some under
    else if gap < twice then some (under + 1)
    else some (under + under % 2)

/-- Trailing zeros move into the power of ten. -/
def stripZeros (digits : Nat) (exponent : Int) : Nat × Int :=
  if h : digits = 0 then (0, exponent)
  else if digits % 10 = 0 then stripZeros (digits / 10) (exponent + 1)
  else (digits, exponent)
termination_by digits
decreasing_by omega

/-- The fewest digits that read back as the number, the nearest of those, and their power of ten. -/
def shortest (x : Binary64) : Nat × Int :=
  if x.significand = 0 then (0, 0)
  else
    let point := pointPosition x.ratio.1 x.ratio.2
    let found := (List.range 17).findSome? fun (extra : Nat) =>
      let exponent := point - 1 - extra
      (x.rounding.onGrid exponent).map fun digits => (digits, exponent)
    let (digits, exponent) := found.getD (0, 0)
    stripZeros digits exponent

end Binary64

/-- How a decimal number is laid out. -/
structure DecimalLayout where
  /-- The positions of the decimal point, counted from the first digit, that need no exponent. -/
  positional : Int → Bool
  /-- Whether a whole number still shows one decimal place. -/
  pointZero : Bool
  /-- Whether a positive exponent shows its sign. -/
  plus : Bool

namespace DecimalLayout

/-- JSON text: positional from `1e-5` up to `1e16`, a signed exponent elsewhere. -/
def json : DecimalLayout where
  positional point := -5 < point && point ≤ 16
  pointZero := true
  plus := true

/-- Plain text never has an exponent, and whole numbers have no decimal places. -/
def plain : DecimalLayout where
  positional _ := true
  pointZero := false
  plus := false

/-- Diagnostic text: positional from `1e-4` up to `1e16`, an unsigned exponent above. -/
def diagnostic : DecimalLayout where
  positional point := -4 < point && point ≤ 16
  pointZero := true
  plus := false

/-- `count` zeros. -/
def zeros (count : Nat) : String := String.ofList (List.replicate count '0')

/-- Digits with the decimal point after the first `point` of them. -/
def placed (layout : DecimalLayout) (digits : List Char) (point : Int) : String :=
  if point ≤ 0 then "0." ++ zeros (-point).toNat ++ String.ofList digits
  else if point < digits.length then
    String.ofList (digits.take point.toNat) ++ "." ++ String.ofList (digits.drop point.toNat)
  else
    String.ofList digits ++ zeros (point.toNat - digits.length)
      ++ (if layout.pointZero then ".0" else "")

/-- Digits with one before the decimal point, then the exponent. -/
def scientific (layout : DecimalLayout) (digits : List Char) (point : Int) : String :=
  let mantissa := match digits with
    | first :: second :: rest => String.ofList (first :: '.' :: second :: rest)
    | _ => String.ofList digits
  let exponent := point - 1
  mantissa ++ "e" ++ (if layout.plus && 0 ≤ exponent then "+" else "") ++ toString exponent

/-- The text of a number. -/
def render (layout : DecimalLayout) (x : Binary64) : String :=
  let sign := if x.negative then "-" else ""
  if x.significand = 0 then sign ++ (if layout.pointZero then "0.0" else "0")
  else
    let (number, exponent) := x.shortest
    let digits := Nat.toDigits 10 number
    let point := exponent + digits.length
    sign ++ if layout.positional point then layout.placed digits point
      else layout.scientific digits point

end DecimalLayout

end SchemaClasses
