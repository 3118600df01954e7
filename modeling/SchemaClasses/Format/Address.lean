import SchemaClasses.Text.Segments

/-! Network addresses of four and of sixteen bytes. -/

namespace SchemaClasses

/-- A decimal number of limited size and without leading zeros. -/
def isSmallNumber (limit : Nat) (digits : List Char) : Bool :=
  match digits with
  | [] => false
  | first :: rest =>
    digits.all Char.isDigit && (first != '0' || rest.isEmpty) && digits.length ≤ 9
      && digits.foldl (fun n c => n * 10 + (c.toNat - '0'.toNat)) 0 ≤ limit

/-- Four numbers of one byte each. -/
def isFourBytes (text : List Char) : Bool :=
  let parts := cut '.' text
  parts.length == 4 && parts.all (isSmallNumber 255)

/-- An address of four bytes, the first of which is written without a leading zero. -/
def isIpv4 (text : String) : Bool := text.toList.head? != some '0' && isFourBytes text.toList

/-- A hexadecimal digit. -/
def isHexDigit (c : Char) : Bool := c.isDigit || ('a' ≤ c && c ≤ 'f') || ('A' ≤ c && c ≤ 'F')

/-- The number of 16-bit groups written between colons; an address of four bytes may end them. -/
def groupCount? : List (List Char) → Option Nat
  | [] => some 0
  | [[]] => some 0
  | [last] =>
    if last.all isHexDigit && last.length ≤ 4 then some 1
    else if isFourBytes last then some 2
    else none
  | group :: rest =>
    if group.all isHexDigit && 1 ≤ group.length && group.length ≤ 4 then
      (groupCount? rest).map (· + 1)
    else none

/-- The texts before and behind the first double colon. -/
def cutDoubleColon : List Char → Option (List Char × List Char)
  | ':' :: ':' :: rest => some ([], rest)
  | c :: rest => (cutDoubleColon rest).map fun (before, after) => (c :: before, after)
  | [] => none

/-- Eight groups, or fewer of them around a double colon. -/
def isIpv6 (text : List Char) : Bool :=
  let count? (part : List Char) : Option Nat :=
    if part.isEmpty then some 0
    else if part.getLast? = some ':' ∨ part.head? = some ':' then none
    else groupCount? (cut ':' part)
  match cutDoubleColon text with
  | some (before, after) =>
    match count? before, count? after with
    | some first, some second => first + second ≤ 7 && !before.contains '.'
    | _, _ => false
  | none => !text.isEmpty && count? text == some 8

end SchemaClasses
