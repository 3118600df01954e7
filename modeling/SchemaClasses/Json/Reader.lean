import SchemaClasses.Json
import SchemaClasses.Keyed

/-! Reading JSON text, with a limit on nesting and on the range of numbers. -/

namespace SchemaClasses

namespace Json

/-- A reader yields a value and the rest of the text, or refuses the text. -/
abbrev Reader (α : Type) := List Char → Option (α × List Char)

/-- White space between tokens. -/
def isBlank (c : Char) : Bool := c == ' ' || c == '\n' || c == '\r' || c == '\t'

/-- The text behind leading white space. -/
def skipBlanks (text : List Char) : List Char := text.dropWhile isBlank

/-- The value of a decimal digit. -/
def digitValue (c : Char) : Nat := c.toNat - '0'.toNat

/-- The value of a hexadecimal digit. -/
def hexValue? (c : Char) : Option Nat :=
  if c.isDigit then some (c.toNat - '0'.toNat)
  else if 'a' ≤ c ∧ c ≤ 'f' then some (c.toNat - 'a'.toNat + 10)
  else if 'A' ≤ c ∧ c ≤ 'F' then some (c.toNat - 'A'.toNat + 10)
  else none

/-- Four hexadecimal digits. -/
def hexQuad : Reader Nat
  | a :: b :: c :: d :: rest => do
    let a ← hexValue? a
    let b ← hexValue? b
    let c ← hexValue? c
    let d ← hexValue? d
    return (((a * 16 + b) * 16 + c) * 16 + d, rest)
  | _ => none

/-- The character of a `\u` escape; surrogates must come in pairs. -/
def unicodeEscape (text : List Char) : Option (Char × List Char) := do
  let (first, rest) ← hexQuad text
  if first < 0xD800 ∨ 0xDFFF < first then return (Char.ofNat first, rest)
  if 0xDC00 ≤ first then none
  match rest with
  | '\\' :: 'u' :: rest =>
    let (second, rest) ← hexQuad rest
    if second < 0xDC00 ∨ 0xDFFF < second then none
    return (Char.ofNat (0x10000 + (first - 0xD800) * 0x400 + (second - 0xDC00)), rest)
  | _ => none

/-- The character of an escape, behind its backslash. -/
def escape : Reader Char
  | '"' :: rest => some ('"', rest)
  | '\\' :: rest => some ('\\', rest)
  | '/' :: rest => some ('/', rest)
  | 'b' :: rest => some ('\x08', rest)
  | 'f' :: rest => some ('\x0c', rest)
  | 'n' :: rest => some ('\n', rest)
  | 'r' :: rest => some ('\r', rest)
  | 't' :: rest => some ('\t', rest)
  | 'u' :: rest => unicodeEscape rest
  | _ => none

/-- The rest of a string behind its opening quote; `read` holds what came before, reversed, and
`steps` bounds the number of characters. -/
def stringRest : Nat → List Char → Reader String
  | 0, _, _ => none
  | steps + 1, read, text =>
    match text with
    | [] => none
    | '"' :: rest => some (String.ofList read.reverse, rest)
    | '\\' :: rest => do
      let (c, rest) ← escape rest
      stringRest steps (c :: read) rest
    | c :: rest => if c.toNat < 0x20 then none else stringRest steps (c :: read) rest

/-- A string behind its opening quote. -/
def stringBody (text : List Char) : Option (String × List Char) :=
  stringRest (text.length + 1) [] text

/-- Leading digits accumulated as long as they fit an unsigned 64-bit word: the number, how many of
them it holds, how many follow that do not fit, and the rest of the text. -/
def digits : Nat → Nat → Bool → List Char → Nat × Nat × Nat × List Char
  | value, held, _, [] => (value, held, 0, [])
  | value, held, full, c :: rest =>
    if c.isDigit then
      let next := value * 10 + digitValue c
      if full || 0x10000000000000000 ≤ next then
        let (v, h, dropped, text) := digits value held true rest
        (v, h, dropped + 1, text)
      else digits next (held + 1) false rest
    else (value, held, 0, c :: rest)

/-- The exponent of a number, behind its `e`; its magnitude may be anything. -/
def exponentBody (text : List Char) : Option (Int × List Char) :=
  let (negative, text) := match text with
    | '-' :: rest => (true, rest)
    | '+' :: rest => (false, rest)
    | other => (false, other)
  let shown := text.takeWhile Char.isDigit
  if shown.isEmpty then none
  else
    let magnitude := shown.foldl (fun n c => n * 10 + digitValue c) 0
    some (if negative then -(magnitude : Int) else magnitude, text.drop shown.length)

/-- The double with these digits and this power of ten, if it is in range. -/
def floatOf? (negative : Bool) (significand : Nat) (exponent : Int) : Option Json :=
  -- An exponent that no 32-bit word holds is either out of range or makes the number zero.
  if significand = 0 then some (float (.zero negative))
  else if 0x80000000 ≤ exponent then none
  else if exponent < -0x80000000 then some (float (.zero negative))
  else (Binary64.ofDecimal? negative significand exponent).map float

/-- A number behind its sign. -/
def number (negative : Bool) (text : List Char) : Option (Json × List Char) := do
  let leadingZero := text.head? == some '0'
  let (whole, held, dropped, rest) :=
    if leadingZero then (0, 1, 0, text.drop 1) else digits 0 0 false text
  if held = 0 then none
  if leadingZero ∧ (rest.head?.any Char.isDigit) then none
  let (significand, exponent, isFloat, rest) ← match rest with
    | '.' :: fraction =>
      let (value, shown, lost, rest) := digits whole 0 false fraction
      if shown + lost = 0 then none
      else some (value, (dropped : Int) - shown, true, rest)
    | other => some (whole, (dropped : Int), decide (0 < dropped), other)
  let (exponent, isFloat, rest) ← match rest with
    | 'e' :: power | 'E' :: power => do
      let (shift, rest) ← exponentBody power
      some (exponent + shift, true, rest)
    | other => some (exponent, isFloat, other)
  if isFloat then
    let value ← floatOf? negative significand exponent
    return (value, rest)
  -- Zero with a sign, and what no signed word holds, are doubles.
  if negative ∧ (significand = 0 ∨ 0x8000000000000000 < significand) then
    let value ← floatOf? true significand 0
    return (value, rest)
  return (integer (if negative then -(significand : Int) else significand), rest)

/-- A fixed word. -/
def word (expected : List Char) (value : Json) (text : List Char) : Option (Json × List Char) :=
  if expected.isPrefixOf text then some (value, text.drop expected.length) else none

/-- The items of an array behind its bracket, where another item may follow. -/
def itemsRest (value : Reader Json) : Nat → List Json → Reader (List Json)
  | 0, _, _ => none
  | steps + 1, read, text => do
    let (item, rest) ← value (skipBlanks text)
    match skipBlanks rest with
    | ',' :: rest => itemsRest value steps (item :: read) rest
    | ']' :: rest => some ((item :: read).reverse, rest)
    | _ => none

/-- One member of an object: its name, a colon and its value. -/
def member (value : Reader Json) : Reader (String × Json)
  | '"' :: rest => do
    let (key, rest) ← stringBody rest
    match skipBlanks rest with
    | ':' :: rest =>
      let (item, rest) ← value (skipBlanks rest)
      some ((key, item), rest)
    | _ => none
  | _ => none

/-- The members of an object behind its brace, where another member may follow. -/
def membersRest (value : Reader Json) :
    Nat → List (String × Json) → Reader (List (String × Json))
  | 0, _, _ => none
  | steps + 1, read, text => do
    let ((key, item), rest) ← member value (skipBlanks text)
    -- A repeated name keeps its first place and takes the last value.
    let read := Keyed.insertInto key item read
    match skipBlanks rest with
    | ',' :: rest => membersRest value steps read rest
    | '\x7d' :: rest => some (read, rest)
    | _ => none

/-- A value at the start of the text, with at most `nesting` levels of arrays and objects. -/
def valueAt : Nat → Reader Json
  | nesting, text =>
    match text, nesting with
    | 'n' :: _, _ => word "null".toList null text
    | 't' :: _, _ => word "true".toList (bool true) text
    | 'f' :: _, _ => word "false".toList (bool false) text
    | '"' :: rest, _ => (stringBody rest).map fun (read, rest) => (string read, rest)
    | '-' :: rest, _ => number true rest
    | '[' :: rest, nesting + 1 =>
      match skipBlanks rest with
      | ']' :: rest => some (array [], rest)
      | inside =>
        (itemsRest (valueAt nesting) (inside.length + 1) [] inside).map fun (items, rest) =>
          (array items, rest)
    | '\x7b' :: rest, nesting + 1 =>
      match skipBlanks rest with
      | '\x7d' :: rest => some (object [], rest)
      | inside =>
        (membersRest (valueAt nesting) (inside.length + 1) [] inside).map fun (members, rest) =>
          (object members, rest)
    | c :: _, _ => if c.isDigit then number false text else none
    | [], _ => none

/-- The value that a whole text stands for, nested at most 127 levels deep. -/
def parse? (text : String) : Option Json := do
  let (value, rest) ← valueAt 127 (skipBlanks text.toList)
  if (skipBlanks rest).isEmpty then return value else none

end Json

end SchemaClasses
