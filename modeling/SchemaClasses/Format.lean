import SchemaClasses.Format.Address
import SchemaClasses.Format.Moment
import SchemaClasses.Pattern.Extended.Machine
import SchemaClasses.Text.Segments
import SchemaClasses.Unicode.Core
import SchemaClasses.Url
import SchemaClasses.Validation.Draft

/-! The text formats of schemas, regular expressions among them. -/

namespace SchemaClasses

/-! Names of hosts, and addresses of mail. -/

/-- Letters and digits of all scripts, hyphens and dots, with no more than 63 of them between two
dots. -/
def isHostname (text : String) : Bool :=
  let letters := text.toList
  !letters.isEmpty && letters.head? != some '-' && letters.getLast? != some '-'
    && letters.length ≤ 255
    && letters.all (fun c => c == '-' || c == '.' || Unicode.alphanumeric.contains c)
    && (cut '.' letters).all fun part => part.length ≤ 63

/-- Whether an at sign stands behind a character, and no dot stands before it or next to another
dot before it. -/
def hasMailbox : List Char → Bool
  | a :: b :: rest =>
    if a = '.' ∧ (b = '.' ∨ b = '@') then false
    else b = '@' || hasMailbox (b :: rest)
  | _ => false

/-- A mailbox and an at sign; what stands behind them does not matter. -/
def isEmail (text : String) : Bool :=
  text.toList.head? != some '.' && hasMailbox text.toList

/-! The regular expressions of schemas, in which the short-hands for classes are those of ASCII. -/

namespace SchemaPattern

/-- Control characters written with a letter, put in place; what stands before the backslash does
not matter. -/
def controlLetters : List Char → List Char
  | [] => []
  | '\\' :: 'c' :: letter :: rest =>
    if letter.isAlpha then Char.ofNat (letter.toNat - 64) :: controlLetters rest
    else '\\' :: controlLetters ('c' :: letter :: rest)
  | c :: rest => c :: controlLetters rest
termination_by text => text.length

/-- The blanks of schemas. -/
def blanks : List Char :=
  " \t\n\r\x0b\x0c\u2003\ufeff\u2029\u00a0".toList

/-- The set that a short-hand for a class stands for. -/
def shorthand? : Char → Option (List Char)
  | 'd' => some "[0-9]".toList
  | 'D' => some "[^0-9]".toList
  | 'w' => some "[A-Za-z0-9_]".toList
  | 'W' => some "[^A-Za-z0-9_]".toList
  | 's' => some ('[' :: (blanks ++ [']']))
  | 'S' => some ('[' :: '^' :: (blanks ++ [']']))
  | _ => none

/-- The text with all short-hands spelled out, also inside brackets. -/
def spelledOut : List Char → List Char
  | [] => []
  | '\\' :: c :: rest => (shorthand? c).getD ['\\', c] ++ spelledOut rest
  | c :: rest => c :: spelledOut rest

end SchemaPattern

/-- The expression that a text stands for in a schema. -/
def schemaPattern? (text : String) : Option Expression :=
  Expression.ofList? (SchemaPattern.spelledOut (SchemaPattern.controlLetters text.toList))

/-! The text formats of schemas. -/

namespace Format

/-- A form that texts can have, as a regular expression. -/
structure Form where
  pattern : Option Pattern

/-- Whether a text has a form. -/
def Form.admits (form : Form) (text : String) : Bool :=
  form.pattern.any fun pattern => pattern.isMatch text

/-- A reference: an optional scheme, and no blank, backslash or second fragment. -/
def reference : Form :=
  ⟨Pattern.parse? "^(\\w+:(/?/?))?[^#\\\\\\s]*(#[^\\\\\\s]*)?$"⟩

/-- A template for references: characters as they are or by their codes, and names in braces. -/
def template : Form :=
  let letter := "(?:[a-z0-9_]|%[0-9a-f]\x7b2\x7d)+(?::[1-9][0-9]\x7b0,3\x7d|\\*)?"
  let plain := "(?:[^\\x00-\\x20\"'<>%\\\\^\x60\x7b|\x7d]|%[0-9a-f]\x7b2\x7d)"
  ⟨Pattern.parse? ("^(?:" ++ plain ++ "|\\\x7b[+#./;?&=,!@|]?" ++ letter ++ "(?:," ++ letter
    ++ ")*\\\x7d)*$")⟩

/-- A path into a document. -/
def pointer : Form := ⟨Pattern.parse? "^(/(([^/~])|(~[01]))*)*$"⟩

/-- A path that starts at a place in a document. -/
def relativePointer : Form :=
  ⟨Pattern.parse? "^(?:0|[1-9][0-9]*)(?:#|(?:/(?:[^~/]|~0|~1)*)*)$"⟩

/-- An absolute reference. -/
def isUri (text : String) : Bool := (Url.parse? none text).isSome

/-- A regular expression. -/
def isRegex (text : String) : Bool := (schemaPattern? text).isSome

/-- The test for a format; a format that a draft does not know admits every text. -/
def test? (draft : Draft) (format : String) : Option (String → Bool) :=
  if !draft.knowsFormat format then none
  else match format with
    | "ipv4" => some isIpv4
    | "ipv6" => some fun text => isIpv6 text.toList
    | "date" => some isDate
    | "time" => some isTime
    | "date-time" => some isDateTime
    | "email" | "idn-email" => some isEmail
    | "hostname" | "idn-hostname" => some isHostname
    | "uri" | "iri" => some isUri
    | "uri-reference" | "iri-reference" => some reference.admits
    | "uri-template" => some template.admits
    | "json-pointer" => some pointer.admits
    | "relative-json-pointer" => some relativePointer.admits
    | "regex" => some isRegex
    | _ => none

end Format

end SchemaClasses
