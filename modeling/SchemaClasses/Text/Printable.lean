import SchemaClasses.Unicode.Core

/-! The characters that diagnostic text shows by their code point. -/

namespace SchemaClasses

/-- The characters that diagnostic text does not show as they are: those without a form of their
own, those that belong to the one before, and all separators but the plain space. The sound marks of
half-width letters have a form of their own. -/
def hiddenCharacters : CodeSet :=
  (CodeSet.unionAll [Unicode.others, Unicode.separators, Unicode.graphemeExtend,
    Unicode.defaultIgnorable]).difference (.ofWords ["20 FF9E-FF9F"])

/-- Whether a character stands for itself in diagnostic text. -/
def isPrintable (c : Char) : Bool := !hiddenCharacters.contains c

/-- A character of a quoted diagnostic text. -/
def diagnosticChar (c : Char) : List Char :=
  match c with
  | '\x00' => ['\\', '0']
  | '\t' => ['\\', 't']
  | '\n' => ['\\', 'n']
  | '\r' => ['\\', 'r']
  | '"' => ['\\', '"']
  | '\\' => ['\\', '\\']
  | c =>
    if isPrintable c then [c]
    else ['\\', 'u', '\x7b'] ++ Nat.toDigits 16 c.toNat ++ ['\x7d']

/-- A text in quotes, with every character visible. -/
def diagnosticQuote (text : String) : String :=
  "\"" ++ String.ofList (text.toList.flatMap diagnosticChar) ++ "\""

end SchemaClasses
