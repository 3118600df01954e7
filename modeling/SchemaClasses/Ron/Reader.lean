import SchemaClasses.Settings.Value
import SchemaClasses.Text.Segments

/-! Settings files in RON: records in round brackets, maps in braces and lists in square brackets. -/

namespace SchemaClasses

namespace Ron

/-- Reading takes something from the start of a text. -/
abbrev Take (α : Type) := List Char → Option (α × List Char)

/-- A character between tokens. -/
def isBlank (c : Char) : Bool := c ∈ [' ', '\t', '\n', '\r']

/-- The text behind a comment in slashes and stars, inside of which `depth` comments are open. -/
def behindComment? : (depth : Nat) → List Char → Option (List Char)
  | depth, '/' :: '*' :: rest => behindComment? (depth + 1) rest
  | 0, '*' :: '/' :: rest => some rest
  | depth + 1, '*' :: '/' :: rest => behindComment? depth rest
  | depth, _ :: rest => behindComment? depth rest
  | _, [] => none

/-- The text without white space and comments in front; `steps` bounds their number. A comment that
is not closed is none. -/
def skip : (steps : Nat) → List Char → List Char
  | 0, text => text
  | steps + 1, text =>
    match text.dropWhile isBlank with
    | '/' :: '/' :: rest => skip steps (rest.dropWhile (· != '\n'))
    | '/' :: '*' :: rest =>
      match behindComment? 0 rest with
      | some rest => skip steps rest
      | none => '/' :: '*' :: rest
    | rest => rest

/-- The text without white space and comments in front. -/
def skipBlanks (text : List Char) : List Char := skip (text.length + 1) text

/-- The text behind a token and the blanks after it. -/
def token? (token : String) (text : List Char) : Option (List Char) :=
  if token.toList.isPrefixOf text then some (skipBlanks (text.drop token.length)) else none

/-- A letter that a name may begin with. -/
def startsName (c : Char) : Bool := c.isAlpha || c == '_'

/-- A name. -/
def name : Take String
  | 'r' :: '#' :: rest =>
    let letters := rest.takeWhile fun c => startsName c || c.isDigit || c ∈ ['.', '+', '-']
    if letters.isEmpty then none else some (String.ofList letters, rest.drop letters.length)
  | 'r' :: '"' :: _ => none
  | c :: rest =>
    let letters := c :: rest.takeWhile fun c => startsName c || c.isDigit
    if startsName c then some (String.ofList letters, (c :: rest).drop letters.length) else none
  | [] => none

/-- A word that is not the start of a longer one. -/
def word? (word : String) (text : List Char) : Option (List Char) :=
  if word.toList.isPrefixOf text then
    let rest := text.drop word.length
    if rest.head?.any fun c => startsName c || c.isDigit then none else some rest
  else none

/-- The character behind a backslash. -/
def escape : Take Char
  | '\'' :: rest => some ('\'', rest)
  | '"' :: rest => some ('"', rest)
  | '\\' :: rest => some ('\\', rest)
  | 'n' :: rest => some ('\n', rest)
  | 'r' :: rest => some ('\r', rest)
  | 't' :: rest => some ('\t', rest)
  | '0' :: rest => some ('\x00', rest)
  | 'x' :: a :: b :: rest => do
    some (Char.ofNat ((← Json.hexValue? a) * 16 + (← Json.hexValue? b)), rest)
  | 'u' :: '\x7b' :: rest =>
    let digits := (rest.take 6).takeWhile fun c => (Json.hexValue? c).isSome
    let code := numberOf 16 digits
    match rest.drop digits.length with
    | '\x7d' :: rest =>
      if digits.isEmpty || !code.isValidChar then none else some (Char.ofNat code, rest)
    | _ => none
  | _ => none

/-- The rest of a string up to its closing quote. -/
def stringRest : (steps : Nat) → (taken : List Char) → Take String
  | 0, _, _ => none
  | steps + 1, taken, text =>
    match text with
    | '"' :: rest => some (String.ofList taken.reverse, rest)
    | '\\' :: rest => do
      let (c, rest) ← escape rest
      stringRest steps (c :: taken) rest
    | c :: rest => stringRest steps (c :: taken) rest
    | [] => none

/-- The letters up to an end, and the text behind it. -/
def upTo (ending : List Char) : Take (List Char)
  | [] => none
  | c :: rest =>
    if ending.isPrefixOf (c :: rest) then some ([], (c :: rest).drop ending.length)
    else (upTo ending rest).map fun (letters, rest) => (c :: letters, rest)

/-- A string with escapes, or one without them between number signs. -/
def string : Take String
  | '"' :: rest => stringRest (rest.length + 1) [] rest
  | 'r' :: rest =>
    let marks := rest.takeWhile (· == '#')
    match rest.drop marks.length with
    | '"' :: rest => (upTo ('"' :: marks) rest).map fun (letters, rest) =>
      (String.ofList letters, rest)
    | _ => none
  | _ => none

/-- A single character in quotes. -/
def character : Take String
  | '\'' :: '\\' :: rest => do
    let (c, rest) ← escape rest
    match rest with
    | '\'' :: rest => some (c.toString, rest)
    | _ => none
  | '\'' :: c :: '\'' :: rest => some (c.toString, rest)
  | _ => none

/-- The base of a number by the letter behind its zero. -/
def baseOf? : Char → Option Nat
  | 'x' => some 16
  | 'o' => some 8
  | 'b' => some 2
  | _ => none

/-- A number; whole ones that need more than 64 bits are doubles. -/
def number : Take Setting := fun text => do
  let sign := (text.take 1).filter fun c => c == '+' || c == '-'
  let unsigned := text.drop sign.length
  let (base, behind) := match unsigned with
    | '0' :: letter :: rest => match baseOf? letter with
      | some base => (base, rest)
      | none => (10, unsigned)
    | _ => (10, unsigned)
  let isPart (c : Char) := (Json.hexValue? c).isSome || c == '_'
  let isFloat := base = 10 && (behind.takeWhile isPart).any fun c => c == 'e' || c == 'E'
    || (behind.dropWhile isPart).head? == some '.'
  if isFloat then
    let letters := behind.takeWhile fun c => c.isDigit || c ∈ ['e', 'E', '.', '+', '-', '_']
    let x ← AnyDouble.ofText? (sign ++ letters.filter (· != '_'))
    return (.decimal x, behind.drop letters.length)
  let letters := behind.takeWhile isPart
  let digits := letters.filter (· != '_')
  if letters.head? = some '_' then none
  if digits.isEmpty || !digits.all fun c => (Json.hexValue? c).any (· < base) then none
  let rest := behind.drop letters.length
  match int64OfText? base (sign ++ digits) with
  | some n => return (.whole n, rest)
  | none =>
    let exact := Nat.toDigits 10 (numberOf base digits)
    return (.decimal (AnyDouble.nearest (sign = ['-']) exact 0), rest)

/-- A word that stands for a value. -/
def named? (text : List Char) : Option (Setting × List Char) :=
  [("true", Setting.bool true), ("false", .bool false), ("None", .nothing),
    ("inf", .decimal (.infinite false)), ("-inf", .decimal (.infinite true)),
    ("NaN", .decimal .undefined)].findSome? fun (word, value) =>
      (word? word text).map fun rest => (value, rest)

mutual

/-- Any value; `steps` bounds the number of readings. -/
def value : (steps : Nat) → Take Setting
  | 0, _ => none
  | steps + 1, text =>
    match named? text, word? "Some" text, name text with
    | some found, _, _ => some found
    | none, some rest, _ => do
      let rest ← token? "(" (skipBlanks rest)
      let (held, rest) ← value steps rest
      let rest ← token? ")" (match skipBlanks rest with
        | ',' :: rest => skipBlanks rest
        | rest => rest)
      return (held, rest)
    | none, none, some (_, rest) =>
      match skipBlanks rest with
      | '(' :: rest => bracketed steps rest
      | rest => some (.nothing, rest)
    | none, none, none =>
      match text with
      | '(' :: rest =>
        match rest with
        | ')' :: rest => some (.nothing, rest)
        | rest => bracketed steps rest
      | '[' :: rest =>
        (itemsRest steps ']' [] (skipBlanks rest)).map fun (items, rest) => (.list items, rest)
      | '\x7b' :: rest =>
        (entriesRest steps [] (skipBlanks rest)).map fun (entries, rest) => (.table entries, rest)
      | '\'' :: _ => (character text).map fun (letter, rest) => (.text letter, rest)
      | text =>
        match string text with
        | some (content, rest) => some (.text content, rest)
        | none => number text

/-- What stands in round brackets: named fields, or items. -/
def bracketed : (steps : Nat) → Take Setting
  | 0, _ => none
  | steps + 1, text =>
    let inside := skipBlanks text
    let isNamed := (name inside).any fun (_, rest) => (skipBlanks rest).head? == some ':'
    if isNamed then
      (fieldsRest steps [] inside).map fun (entries, rest) => (.table entries, rest)
    else (itemsRest steps ')' [] inside).map fun (items, rest) => (.list items, rest)

/-- Items up to a closing bracket. -/
def itemsRest : (steps : Nat) → (closing : Char) → List Setting → Take (List Setting)
  | 0, _, _, _ => none
  | steps + 1, closing, taken, text =>
    if text.head? = some closing then some (taken.reverse, text.drop 1)
    else do
      let (item, rest) ← value steps text
      match skipBlanks rest with
      | ',' :: rest => itemsRest steps closing (item :: taken) (skipBlanks rest)
      | c :: rest => if c = closing then some ((item :: taken).reverse, rest) else none
      | [] => none

/-- Named fields up to a closing bracket. -/
def fieldsRest : (steps : Nat) → List (String × Setting) → Take (List (String × Setting))
  | 0, _, _ => none
  | steps + 1, taken, text =>
    match text with
    | ')' :: rest => some (taken, rest)
    | text => do
      let (key, rest) ← name text
      let rest ← token? ":" (skipBlanks rest)
      let (held, rest) ← value steps rest
      let taken := Keyed.insertInto key held taken
      match skipBlanks rest with
      | ',' :: rest => fieldsRest steps taken (skipBlanks rest)
      | ')' :: rest => some (taken, rest)
      | _ => none

/-- The entries of a map up to its closing brace; their keys are text. -/
def entriesRest : (steps : Nat) → List (String × Setting) → Take (List (String × Setting))
  | 0, _, _ => none
  | steps + 1, taken, text =>
    match text with
    | '\x7d' :: rest => some (taken, rest)
    | text => do
      let (key, rest) ← value steps text
      let key ← match key with
        | .text key => some key
        | _ => none
      let rest ← token? ":" (skipBlanks rest)
      let (held, rest) ← value steps rest
      let taken := Keyed.insertInto key held taken
      match skipBlanks rest with
      | ',' :: rest => entriesRest steps taken (skipBlanks rest)
      | '\x7d' :: rest => some (taken, rest)
      | _ => none

end

/-- The features that a file may ask for in front. -/
def features : List String := ["unwrap_newtypes", "implicit_some", "unwrap_variant_newtypes"]

/-- The text behind requests for features; `steps` bounds their number. -/
def behindRequests? : (steps : Nat) → List Char → Option (List Char)
  | 0, _ => none
  | steps + 1, text =>
    match token? "#!" text with
    | none => some text
    | some rest => do
      let rest ← token? "(" (← token? "enable" (← token? "[" rest))
      let names := rest.takeWhile (· != ')')
      let asked := (cut ',' names).map fun letters => String.ofList (letters.filter (!isBlank ·))
      let asked := if asked.getLast? = some "" then asked.dropLast else asked
      if !asked.all (· ∈ features) then none
      let rest ← token? ")" (rest.drop names.length)
      behindRequests? steps (← token? "]" rest)

/-- The value of a whole text. -/
def parse? (text : String) : Option Setting := do
  let letters := text.toList
  let inside ← behindRequests? (letters.length + 1) (skipBlanks letters)
  let (value, rest) ← value (letters.length + 1) inside
  if (skipBlanks rest).isEmpty then some value else none

end Ron

end SchemaClasses
