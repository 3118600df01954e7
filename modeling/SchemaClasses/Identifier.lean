import SchemaClasses.Fault
import SchemaClasses.Language

/-! Bare identifiers: recognised, made from any text, and allocated without collision. -/

namespace SchemaClasses

/-- An ASCII letter or an underscore. -/
def isIdentifierStart (c : Char) : Bool := c.isAlpha || c == '_'

/-- An ASCII letter, an ASCII digit or an underscore. -/
def isIdentifierPart (c : Char) : Bool := c.isAlphanum || c == '_'

/-- Whether characters spell a bare identifier. -/
def spellsIdentifier : List Char → Bool
  | first :: rest => isIdentifierStart first && rest.all isIdentifierPart
  | [] => false

/-- Whether a text is a bare identifier. -/
def isIdentifier (text : String) : Bool := spellsIdentifier text.toList

/-- An upper-case hexadecimal digit. -/
def upperHexDigit (n : Nat) : Char := (Nat.digitChar (n % 16)).toUpper

/-- An underscore and the two hexadecimal digits of a byte. -/
def encodeByte (byte : UInt8) : List Char :=
  ['_', upperHexDigit (byte.toNat / 16), upperHexDigit byte.toNat]

/-- A character in identifier-safe form: hyphens and blanks become underscores, other unsafe
characters the bytes that encode them. -/
def sanitizeChar (c : Char) : List Char :=
  if isIdentifierPart c then [c]
  else if c == '-' || c == ' ' then ['_']
  else (String.utf8EncodeChar c).flatMap encodeByte

/-- An identifier made from any text; identifiers stay as they are, and an underscore stands in
front of a digit and in place of an empty name. -/
def sanitize (text : String) : String :=
  let letters := text.toList
  if spellsIdentifier letters then text
  else
    let lead := match letters with
      | [] => ['_']
      | first :: _ => if first.isDigit then ['_'] else []
    String.ofList (lead ++ letters.flatMap sanitizeChar)

/-- The identifier of a field: sanitized, and escaped where the language reserves it. -/
def fieldName (text : String) (language : Language) : String :=
  language.escapeReserved (sanitize text)

/-- No numeric suffix of an allocated name reaches this. -/
def suffixLimit : Nat := 1000

/-- The candidate, or the candidate with the smallest positive number that makes it free. -/
def allocate (candidate : String) (taken : String → Bool) : Except Fault String :=
  if !taken candidate then .ok candidate
  else match (List.range' 1 (suffixLimit - 1)).find? fun n => !taken (candidate ++ toString n) with
    | some n => .ok (candidate ++ toString n)
    | none => .error (.namesExhausted candidate)

end SchemaClasses
