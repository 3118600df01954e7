import SchemaClasses.Decimal
import SchemaClasses.Json.Reader
import SchemaClasses.Text.Segments

/-! Doubles that need not be finite, read from decimal text with a single rounding. -/

namespace SchemaClasses

/-- A double: a finite one, an infinity, or the value that is no number. -/
inductive AnyDouble where
  | finite (value : Binary64)
  | infinite (isNegative : Bool)
  | undefined
deriving DecidableEq, Repr, Inhabited

/-- The value of digits of a base. -/
def numberOf (base : Nat) (digits : List Char) : Nat :=
  digits.foldl (fun n c => n * base + (Json.hexValue? c).getD 0) 0

namespace AnyDouble

/-- The double nearest to a decimal number with these digits and this power of ten. -/
def nearest (isNegative : Bool) (digits : List Char) (exponent : Int) : AnyDouble :=
  let n := numberOf 10 digits
  if 400 < exponent ∧ n ≠ 0 then infinite isNegative
  else if exponent < -(400 + digits.length : Int) then finite (.zero isNegative)
  else
    match Binary64.ofRatio? isNegative (n * tenTo exponent.toNat) (tenTo (-exponent).toNat) with
    | some x => finite x
    | none => infinite isNegative

/-- A sign in front of a text, if there is one. -/
def signed : List Char → Bool × List Char
  | '-' :: rest => (true, rest)
  | '+' :: rest => (false, rest)
  | letters => (false, letters)

/-- The power of ten that a text behind the mantissa states. -/
def exponentOf? : List Char → Option Int
  | [] => some 0
  | _ :: letters =>
    let (isNegative, digits) := signed letters
    if digits.isEmpty || !digits.all Char.isDigit then none
    else
      let magnitude : Int := numberOf 10 digits
      some (if isNegative then -magnitude else magnitude)

/-- The number that a text without its sign states. Digits may be missing on one side of the point,
and the words for what is not finite are taken in any case. -/
def unsigned? (isNegative : Bool) (letters : List Char) : Option AnyDouble := do
  let word := String.ofList (letters.map Char.toLower)
  if word = "inf" ∨ word = "infinity" then return infinite isNegative
  if word = "nan" then return undefined
  let mantissa := letters.takeWhile fun c => c != 'e' && c != 'E'
  let exponent ← exponentOf? (letters.drop mantissa.length)
  let (whole, fraction) ← match cut '.' mantissa with
    | [whole] => some (whole, [])
    | [whole, fraction] => some (whole, fraction)
    | _ => none
  let digits := whole ++ fraction
  if digits.isEmpty || !digits.all Char.isDigit then none
  return nearest isNegative digits (exponent - fraction.length)

/-- The number that a text states. -/
def ofText? (letters : List Char) : Option AnyDouble :=
  let (isNegative, letters) := signed letters
  unsigned? isNegative letters

/-- Plain decimal text, which never has an exponent. -/
def text : AnyDouble → String
  | finite x => DecimalLayout.plain.render x
  | infinite isNegative => if isNegative then "-inf" else "inf"
  | undefined => "NaN"

/-- Whether this is one of the two zeros. -/
def isZero : AnyDouble → Bool
  | finite x => x.significand = 0
  | _ => false

end AnyDouble

/-- A whole number of 64 bits with a sign. -/
def fitsInt64 (n : Int) : Bool := -0x8000000000000000 ≤ n && n < 0x8000000000000000

/-- The whole number of 64 bits that a text of digits behind an optional sign states. -/
def int64OfText? (base : Nat) (letters : List Char) : Option Int :=
  let (isNegative, digits) := AnyDouble.signed letters
  let isDigit (c : Char) := (Json.hexValue? c).any (· < base)
  if digits.isEmpty || !digits.all isDigit then none
  else
    let magnitude : Int := numberOf base digits
    let n := if isNegative then -magnitude else magnitude
    if fitsInt64 n then some n else none

end SchemaClasses
