import SchemaClasses.Json.Reader
import SchemaClasses.Text.Utf8

/-! Texts that encode other content: base 64, and bytes that are text themselves. -/

namespace SchemaClasses

namespace Base64

/-- The six bits that a letter stands for. -/
def value? (c : Char) : Option Nat :=
  if 'A' ≤ c ∧ c ≤ 'Z' then some (c.toNat - 'A'.toNat)
  else if 'a' ≤ c ∧ c ≤ 'z' then some (c.toNat - 'a'.toNat + 26)
  else if c.isDigit then some (c.toNat - '0'.toNat + 52)
  else if c = '+' then some 62
  else if c = '/' then some 63
  else none

/-- The bytes that letters encode, four letters at a time. The last four may be filled up with one
or two equals signs, and then the bits that are left over are zeros. -/
def decode? : List Char → Option (List Nat)
  | [] => some []
  | [a, b, '=', '='] => do
    let bits := (← value? a) * 64 + (← value? b)
    if bits % 16 = 0 then some [bits / 16] else none
  | [a, b, c, '='] => do
    let bits := ((← value? a) * 64 + (← value? b)) * 64 + (← value? c)
    if bits % 4 = 0 then some [bits / 1024, bits / 4 % 256] else none
  | a :: b :: c :: d :: rest => do
    let bits := (((← value? a) * 64 + (← value? b)) * 64 + (← value? c)) * 64 + (← value? d)
    return bits / 65536 :: bits / 256 % 256 :: bits % 256 :: (← decode? rest)
  | _ => none

end Base64

/-- Whether a text is a JSON document. -/
def isJsonText (text : String) : Bool := (Json.parse? text).isSome

end SchemaClasses
