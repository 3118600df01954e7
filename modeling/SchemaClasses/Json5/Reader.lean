import SchemaClasses.Settings.Value
import SchemaClasses.Unicode.Category
import SchemaClasses.Unicode.Core

/-! Settings files in JSON5, which is JSON as people write it: with comments, names without quotes,
and commas behind the last item. -/

namespace SchemaClasses

namespace Json5

/-- Reading takes something from the start of a text. -/
abbrev Take (α : Type) := List Char → Option (α × List Char)

/-- A character that ends a line. -/
def endsLine (c : Char) : Bool := c ∈ ['\n', '\r', '\u2028', '\u2029']

/-- A character that separates tokens. -/
def isBlank (c : Char) : Bool :=
  c ∈ ['\t', '\x0b', '\x0c', ' ', '\u00a0', '\ufeff'] || endsLine c
    || Unicode.spaceSeparators.contains c

/-- The text behind the end of a comment that begins and ends with a star and a slash. -/
def behindStar? : List Char → Option (List Char)
  | '*' :: '/' :: rest => some rest
  | _ :: rest => behindStar? rest
  | [] => none

/-- The text without white space and comments in front; `steps` bounds their number. A comment that
is not closed is none. -/
def skip : (steps : Nat) → List Char → List Char
  | 0, text => text
  | steps + 1, text =>
    match text.dropWhile isBlank with
    | '/' :: '/' :: rest => skip steps (rest.dropWhile (!endsLine ·))
    | '/' :: '*' :: rest =>
      match behindStar? rest with
      | some rest => skip steps rest
      | none => '/' :: '*' :: rest
    | rest => rest

/-- The text without white space and comments in front. -/
def skipBlanks (text : List Char) : List Char := skip (text.length + 1) text

/-- A letter that a name may begin with. -/
def startsName (c : Char) : Bool :=
  c == '$' || c == '_' || Unicode.letters.contains c || Unicode.letterNumbers.contains c

/-- A character that a name may hold behind its first letter. -/
def continuesName (c : Char) : Bool :=
  startsName c || c == '\u200c' || c == '\u200d' || Unicode.nonspacingMarks.contains c
    || Unicode.diacritics.contains c || Unicode.decimalDigits.contains c
    || Unicode.connectors.contains c

/-- The rest of a name; `taken` holds what came before, reversed. -/
def nameRest : (steps : Nat) → (taken : List Char) → Take (List Char)
  | 0, _, _ => none
  | steps + 1, taken, text =>
    match text with
    | '\\' :: 'u' :: rest => do
      let (c, rest) ← Json.unicodeEscape rest
      nameRest steps (c :: taken) rest
    | c :: rest =>
      let isPart := if taken.isEmpty then startsName c else continuesName c
      if isPart then nameRest steps (c :: taken) rest else some (taken.reverse, c :: rest)
    | [] => some (taken.reverse, [])

/-- A name without quotes. -/
def name : Take String := fun text => do
  let (letters, rest) ← nameRest (text.length + 1) [] text
  if letters.isEmpty then none else some (String.ofList letters, rest)

/-- The character behind a backslash in a string, or none where the backslash joins lines. -/
def escape : Take (Option Char)
  | '\r' :: '\n' :: rest => some (none, rest)
  | '0' :: rest => some (some '\x00', rest)
  | 'b' :: rest => some (some '\x08', rest)
  | 'f' :: rest => some (some '\x0c', rest)
  | 'n' :: rest => some (some '\n', rest)
  | 'r' :: rest => some (some '\r', rest)
  | 't' :: rest => some (some '\t', rest)
  | 'v' :: rest => some (some '\x0b', rest)
  | 'x' :: a :: b :: rest => do
    some (some (Char.ofNat ((← Json.hexValue? a) * 16 + (← Json.hexValue? b))), rest)
  | 'u' :: rest => (Json.unicodeEscape rest).map fun (c, rest) => (some c, rest)
  | c :: rest =>
    if endsLine c then some (none, rest)
    else if c.isDigit || c == 'x' then none
    else some (some c, rest)
  | [] => none

/-- The rest of a string up to its closing quote. -/
def stringRest (quote : Char) : (steps : Nat) → (taken : List Char) → Take String
  | 0, _, _ => none
  | steps + 1, taken, text =>
    match text with
    | '\\' :: rest => do
      let (c, rest) ← escape rest
      stringRest quote steps (c.toList ++ taken) rest
    | c :: rest =>
      if c == quote then some (String.ofList taken.reverse, rest)
      else if endsLine c then none
      else stringRest quote steps (c :: taken) rest
    | [] => none

/-- A string in quotes of either kind. -/
def string : Take String
  | quote :: rest =>
    if quote == '"' || quote == '\'' then stringRest quote (rest.length + 1) [] rest else none
  | [] => none

/-- The letters of a decimal number without its sign, at the start of a text. -/
def decimalLetters? (text : List Char) : Option (List Char) := do
  let whole := match text with
    | '0' :: _ => ['0']
    | text => text.takeWhile Char.isDigit
  let fraction := match text.drop whole.length with
    | '.' :: rest => '.' :: rest.takeWhile Char.isDigit
    | _ => []
  if whole.isEmpty && fraction.length < 2 then none
  let mantissa := whole ++ fraction
  let exponent := match text.drop mantissa.length with
    | e :: rest =>
      let sign := (rest.take 1).filter fun c => c == '+' || c == '-'
      let digits := (rest.drop sign.length).takeWhile Char.isDigit
      if (e == 'e' || e == 'E') && !digits.isEmpty then e :: sign ++ digits else []
    | [] => []
  return mantissa ++ exponent

/-- A number. Hexadecimal ones have 32 bits and no sign; a number without point and exponent is
whole and has 64 bits; all others must be small enough for a double. -/
def number : Take Setting := fun text => do
  let sign := (text.take 1).filter fun c => c == '+' || c == '-'
  let unsigned := text.drop sign.length
  if "Infinity".toList.isPrefixOf unsigned then
    if sign = ['+'] then none
    return (.decimal (.infinite (sign = ['-'])), unsigned.drop 8)
  if "NaN".toList.isPrefixOf unsigned then
    if sign = ['+'] then none
    return (.decimal .undefined, unsigned.drop 3)
  match unsigned with
  | '0' :: x :: digit :: rest =>
    if (x == 'x' || x == 'X') && (Json.hexValue? digit).isSome then
      let digits := (digit :: rest).takeWhile fun c => (Json.hexValue? c).isSome
      let n := numberOf 16 digits
      if !sign.isEmpty || 0x100000000 ≤ n then none
      return (.whole n, unsigned.drop (digits.length + 2))
  | _ => pure ()
  let letters ← decimalLetters? unsigned
  let rest := unsigned.drop letters.length
  if letters.all Char.isDigit then return (.whole (← int64OfText? 10 (sign ++ letters)), rest)
  match AnyDouble.ofText? (sign ++ letters) with
  | some (.finite x) => return (.decimal (.finite x), rest)
  | _ => none

/-- A word that stands for a value. -/
def word? (text : List Char) : Option (Setting × List Char) :=
  [("null", Setting.nothing), ("true", .bool true), ("false", .bool false)].findSome?
    fun (word, value) =>
      if word.toList.isPrefixOf text then some (value, text.drop word.length) else none

mutual

/-- Any value; `steps` bounds the number of readings. -/
def value : (steps : Nat) → Take Setting
  | 0, _ => none
  | steps + 1, text =>
    match text with
    | '[' :: rest =>
      match skipBlanks rest with
      | ']' :: rest => some (.list [], rest)
      | rest => (itemsRest steps [] rest).map fun (items, rest) => (.list items, rest)
    | '\x7b' :: rest =>
      match skipBlanks rest with
      | '\x7d' :: rest => some (.table [], rest)
      | rest => (membersRest steps [] rest).map fun (members, rest) => (.table members, rest)
    | text =>
      match word? text, string text with
      | some found, _ => some found
      | none, some (content, rest) => some (.text content, rest)
      | none, none => number text

/-- The items of a list, of which one stands next, up to the closing bracket. -/
def itemsRest : (steps : Nat) → List Setting → Take (List Setting)
  | 0, _, _ => none
  | steps + 1, taken, text => do
    let (item, rest) ← value steps text
    match skipBlanks rest with
    | ']' :: rest => some ((item :: taken).reverse, rest)
    | ',' :: rest =>
      match skipBlanks rest with
      | ']' :: rest => some ((item :: taken).reverse, rest)
      | rest => itemsRest steps (item :: taken) rest
    | _ => none

/-- The members of an object, of which one stands next, up to the closing brace; of two with one
name the later one counts. -/
def membersRest : (steps : Nat) → List (String × Setting) → Take (List (String × Setting))
  | 0, _, _ => none
  | steps + 1, taken, text => do
    let (key, rest) ← name text <|> string text
    match skipBlanks rest with
    | ':' :: rest =>
      let (held, rest) ← value steps (skipBlanks rest)
      let taken := Keyed.insertInto key held taken
      match skipBlanks rest with
      | '\x7d' :: rest => some (taken, rest)
      | ',' :: rest =>
        match skipBlanks rest with
        | '\x7d' :: rest => some (taken, rest)
        | rest => membersRest steps taken rest
      | _ => none
    | _ => none

end

/-- The value of a whole text. -/
def parse? (text : String) : Option Setting := do
  let letters := text.toList
  let (value, rest) ← value (letters.length + 1) (skipBlanks letters)
  if (skipBlanks rest).isEmpty then some value else none

end Json5

end SchemaClasses
