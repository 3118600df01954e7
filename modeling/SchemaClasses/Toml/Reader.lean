import SchemaClasses.Toml.Moment
import SchemaClasses.Toml.Table

/-! Settings files in TOML. -/

namespace SchemaClasses

namespace Toml

/-- Reading takes something from the start of a text. -/
abbrev Take (α : Type) := List Char → Option (α × List Char)

/-- A space or a tab. -/
def isSpace (c : Char) : Bool := c == ' ' || c == '\t'

/-- A character that may stand in a comment or a string: a tab, or anything else that is no control
character. -/
def isShown (c : Char) : Bool := c == '\t' || 0x20 ≤ c.toNat && c.toNat != 0x7F

/-- The text without leading spaces. -/
def skipSpaces (text : List Char) : List Char := text.dropWhile isSpace

/-- The text behind a line break. -/
def lineBreak? : List Char → Option (List Char)
  | '\n' :: rest | '\r' :: '\n' :: rest => some rest
  | _ => none

/-- The text behind a comment, which begins the text, up to the line break. -/
def behindComment (text : List Char) : List Char := text.dropWhile isShown

/-- The text without spaces, line breaks and comments in front; `steps` bounds their number. A
comment must be followed by a line break. -/
def skipLines : (steps : Nat) → List Char → Option (List Char)
  | 0, _ => none
  | steps + 1, text =>
    match skipSpaces text with
    | '#' :: rest => do skipLines steps (← lineBreak? (behindComment rest))
    | '\n' :: rest => skipLines steps rest
    | '\r' :: rest => do skipLines steps (← lineBreak? ('\r' :: rest))
    | rest => some rest

/-- The text behind the end of a line, of which only a comment may be left. -/
def endLine (text : List Char) : Option (List Char) :=
  let rest := match skipSpaces text with
    | '#' :: rest => behindComment rest
    | rest => rest
  if rest.isEmpty then some [] else lineBreak? rest

/-- A character that a key may hold without quotes. -/
def isKeyChar (c : Char) : Bool := c.isAlphanum || c == '_' || c == '-'

/-- A character by its code in hexadecimal digits. -/
def codeEscape (width : Nat) : Take Char := fun text => do
  let digits := text.take width
  if digits.length < width then none
  let code ← digits.foldlM (fun n c => (Json.hexValue? c).map (n * 16 + ·)) 0
  if code.isValidChar then some (Char.ofNat code, text.drop width) else none

/-- A character behind a backslash. -/
def escape : Take Char
  | 'b' :: rest => some ('\x08', rest)
  | 't' :: rest => some ('\t', rest)
  | 'n' :: rest => some ('\n', rest)
  | 'f' :: rest => some ('\x0c', rest)
  | 'r' :: rest => some ('\r', rest)
  | '"' :: rest => some ('"', rest)
  | '\\' :: rest => some ('\\', rest)
  | 'u' :: rest => codeEscape 4 rest
  | 'U' :: rest => codeEscape 8 rest
  | _ => none

/-- The rest of a string on one line; `taken` holds what came before, reversed. -/
def basicRest : (steps : Nat) → (taken : List Char) → Take String
  | 0, _, _ => none
  | steps + 1, taken, text =>
    match text with
    | '"' :: rest => some (String.ofList taken.reverse, rest)
    | '\\' :: rest => do
      let (c, rest) ← escape rest
      basicRest steps (c :: taken) rest
    | c :: rest => if isShown c then basicRest steps (c :: taken) rest else none
    | [] => none

/-- A string that ends with three quotes, in front of which up to two more belong to it. -/
def closeLong (quote : Char) (taken text : List Char) : Option (String × List Char) :=
  let more := text.takeWhile (· == quote)
  if more.length ≤ 2 then some (String.ofList (more ++ taken).reverse, text.drop more.length)
  else none

/-- The text behind spaces and line breaks. -/
def skipBreaks : (steps : Nat) → List Char → List Char
  | 0, text => text
  | steps + 1, text =>
    match skipSpaces text with
    | '\n' :: rest | '\r' :: '\n' :: rest => skipBreaks steps rest
    | rest => rest

/-- The rest of a string over several lines; a backslash at the end of a line joins it to the
next. -/
def longRest : (steps : Nat) → (taken : List Char) → Take String
  | 0, _, _ => none
  | steps + 1, taken, text =>
    match text with
    | '"' :: '"' :: '"' :: rest => closeLong '"' taken rest
    | '\\' :: rest =>
      match lineBreak? (skipSpaces rest) with
      | some behind => longRest steps taken (skipBreaks behind.length behind)
      | none => do
        let (c, rest) ← escape rest
        longRest steps (c :: taken) rest
    | '\r' :: '\n' :: rest | '\n' :: rest => longRest steps ('\n' :: taken) rest
    | c :: rest => if isShown c then longRest steps (c :: taken) rest else none
    | [] => none

/-- The rest of a string over several lines without escapes. -/
def longLiteralRest : (steps : Nat) → (taken : List Char) → Take String
  | 0, _, _ => none
  | steps + 1, taken, text =>
    match text with
    | '\'' :: '\'' :: '\'' :: rest => closeLong '\'' taken rest
    | '\r' :: '\n' :: rest | '\n' :: rest => longLiteralRest steps ('\n' :: taken) rest
    | c :: rest => if isShown c then longLiteralRest steps (c :: taken) rest else none
    | [] => none

/-- A text without the line break right behind an opening quote. -/
def dropFirstBreak (text : List Char) : List Char := (lineBreak? text).getD text

/-- A string in quotes on one line. -/
def quoted : Take String
  | '"' :: rest => basicRest (rest.length + 1) [] rest
  | '\'' :: rest =>
    let content := rest.takeWhile fun c => c != '\'' && isShown c
    match rest.drop content.length with
    | '\'' :: rest => some (String.ofList content, rest)
    | _ => none
  | _ => none

/-- A string in quotes of any kind. -/
def string : Take String
  | '"' :: '"' :: '"' :: rest => longRest (rest.length + 1) [] (dropFirstBreak rest)
  | '\'' :: '\'' :: '\'' :: rest => longLiteralRest (rest.length + 1) [] (dropFirstBreak rest)
  | text => quoted text

/-- One part of a key. -/
def keyPart : Take String
  | '"' :: rest => quoted ('"' :: rest)
  | '\'' :: rest => quoted ('\'' :: rest)
  | text =>
    let letters := text.takeWhile isKeyChar
    if letters.isEmpty then none
    else some (String.ofList letters, text.drop letters.length)

/-- The parts of a key with dots between them, the last one apart. -/
def keyParts : (steps : Nat) → Take (List String × String)
  | 0, _ => none
  | steps + 1, text => do
    let (first, rest) ← keyPart (skipSpaces text)
    match skipSpaces rest with
    | '.' :: rest =>
      let ((path, last), rest) ← keyParts steps rest
      return ((first :: path, last), rest)
    | rest => return (([], first), rest)

/-- How deep values and keys may be nested. -/
def depthLimit : Nat := 80

/-- A key, with fewer parts than the limit. -/
def key : Take (List String × String) := keyParts (depthLimit - 1)

/-- Digits without underscores, which may only stand between digits. -/
def plainDigits? (isDigit : Char → Bool) (letters : List Char) : Option (List Char) :=
  let groups := cut '_' letters
  if groups.all fun group => !group.isEmpty && group.all isDigit then some groups.flatten else none

/-- A whole number of 64 bits with another base than ten. -/
def basedNumber? (base : Nat) (letters : List Char) : Option Setting := do
  let digits ← plainDigits? (fun c => (Json.hexValue? c).any (· < base)) letters
  (int64OfText? base digits).map Setting.whole

/-- The parts of a decimal number: digits before and behind the point, and the exponent. -/
def decimalParts? (letters : List Char) : Option (List Char × List Char × Int) := do
  let mantissa := letters.takeWhile fun c => c != 'e' && c != 'E'
  let exponent ← match letters.drop mantissa.length with
    | [] => some (0 : Int)
    | _ :: letters =>
      let (isNegative, digits) := AnyDouble.signed letters
      (plainDigits? Char.isDigit digits).map fun digits =>
        let magnitude : Int := numberOf 10 digits
        if isNegative then -magnitude else magnitude
  match cut '.' mantissa with
  | [whole] => return (← plainDigits? Char.isDigit whole, [], exponent)
  | [whole, fraction] =>
    return (← plainDigits? Char.isDigit whole, ← plainDigits? Char.isDigit fraction, exponent)
  | _ => none

/-- A number without its sign. A positive one must not be too large for a double. -/
def unsigned? (isNegative : Bool) (letters : List Char) : Option Setting := do
  if letters = "inf".toList then return .decimal (.infinite isNegative)
  if letters = "nan".toList then return .decimal .undefined
  let (whole, fraction, exponent) ← decimalParts? letters
  if whole.head? = some '0' ∧ 1 < whole.length then none
  if letters.all fun c => c.isDigit || c == '_' then
    let magnitude : Int := numberOf 10 whole
    let n := if isNegative then -magnitude else magnitude
    if fitsInt64 n then some (.whole n) else none
  else
    match AnyDouble.nearest isNegative (whole ++ fraction) (exponent - fraction.length) with
    | .infinite false => none
    | x => some (.decimal x)

/-- A number from all of its letters. -/
def number? : List Char → Option Setting
  | '0' :: 'x' :: letters => basedNumber? 16 letters
  | '0' :: 'o' :: letters => basedNumber? 8 letters
  | '0' :: 'b' :: letters => basedNumber? 2 letters
  | letters =>
    let (isNegative, letters) := AnyDouble.signed letters
    unsigned? isNegative letters

/-- A word, a date, a time or a number. -/
def bare (text : List Char) : Option (Setting × List Char) :=
  match moment text with
  | .faulty => none
  | .found shown rest => some (.text shown, rest)
  | .other => do
    let letters := text.takeWhile fun c => isKeyChar c || c == '+' || c == '.'
    let value ←
      if letters = "true".toList then some (.bool true)
      else if letters = "false".toList then some (.bool false)
      else number? letters
    return (value, text.drop letters.length)

mutual

/-- Any value, nested less deep than `depth`; `steps` bounds the number of readings. -/
def value : (steps depth : Nat) → Take Setting
  | 0, _, _ => none
  | steps + 1, depth, text =>
    match text with
    | '"' :: _ | '\'' :: _ => (string text).map fun (text, rest) => (.text text, rest)
    | '[' :: rest =>
      if depth ≤ 1 then none
      else (itemsRest steps (depth - 1) [] rest).map fun (items, rest) => (.list items, rest)
    | '\x7b' :: rest =>
      if depth ≤ 1 then none
      else match skipSpaces rest with
        | '\x7d' :: rest => some (.table [], rest)
        | _ => (membersRest steps (depth - 1) (.empty .stated) rest).map fun (table, rest) =>
          (table.finish, rest)
    | text => bare text

/-- The items of a list up to its closing bracket. -/
def itemsRest : (steps depth : Nat) → List Setting → Take (List Setting)
  | 0, _, _, _ => none
  | steps + 1, depth, taken, text => do
    match ← skipLines (text.length + 1) text with
    | ']' :: rest => some (taken.reverse, rest)
    | text =>
      let (item, rest) ← value steps depth text
      match ← skipLines (rest.length + 1) rest with
      | ',' :: rest => itemsRest steps depth (item :: taken) rest
      | ']' :: rest => some ((item :: taken).reverse, rest)
      | _ => none

/-- The members of a table on one line up to its closing brace. -/
def membersRest : (steps depth : Nat) → Table → Take Table
  | 0, _, _, _ => none
  | steps + 1, depth, taken, text => do
    let ((path, last), rest) ← key text
    match rest with
    | '=' :: rest =>
      let (held, rest) ← value steps depth (skipSpaces rest)
      let taken ← taken.put? path last held
      match skipSpaces rest with
      | ',' :: rest => membersRest steps depth taken rest
      | '\x7d' :: rest => some (taken, rest)
      | _ => none
    | _ => none

end

/-- A document in the making, with the header that holds from here on. -/
structure Progress where
  table : Table := .empty .stated
  header : List String := []

/-- A header behind its brackets. -/
def header (progress : Progress) (isRepeated : Bool) (text : List Char) :
    Option (Progress × List Char) := do
  let ((path, last), rest) ← key text
  let rest ← match isRepeated, rest with
    | true, ']' :: ']' :: rest | false, ']' :: rest => endLine rest
    | _, _ => none
  let table ←
    if isRepeated then progress.table.append? path last else progress.table.start? path last
  return ({ table, header := path ++ [last] }, rest)

/-- One line of a document that is not empty: a header or a key with its value. -/
def line (progress : Progress) : List Char → Option (Progress × List Char)
  | '[' :: '[' :: rest => header progress true rest
  | '[' :: rest => header progress false rest
  | text => do
    let ((path, last), rest) ← key text
    match rest with
    | '=' :: rest =>
      let (held, rest) ← value (text.length + 1) depthLimit (skipSpaces rest)
      let rest ← endLine rest
      let table ← progress.table.change? .passed (·.put? path last held) progress.header
      return ({ progress with table }, rest)
    | _ => none

/-- All lines of a document. -/
def lines : (steps : Nat) → Progress → List Char → Option Progress
  | 0, _, _ => none
  | steps + 1, progress, text => do
    match ← skipDocumentLines (text.length + 1) text with
    | [] => some progress
    | text =>
      let (progress, rest) ← line progress text
      lines steps progress rest
where
  /-- As for lists, but a comment may also end the document. -/
  skipDocumentLines : (steps : Nat) → List Char → Option (List Char)
    | 0, _ => none
    | steps + 1, text =>
      match skipSpaces text with
      | '#' :: rest => do skipDocumentLines steps (← endLine ('#' :: rest))
      | '\n' :: rest => skipDocumentLines steps rest
      | '\r' :: rest => do skipDocumentLines steps (← lineBreak? ('\r' :: rest))
      | rest => some rest

/-- The table of a document, which may begin with a byte order mark. -/
def parse? (text : String) : Option Setting :=
  let letters := match text.toList with
    | '\ufeff' :: rest => rest
    | letters => letters
  (lines (letters.length + 1) {} letters).map fun progress => progress.table.finish

end Toml

end SchemaClasses
