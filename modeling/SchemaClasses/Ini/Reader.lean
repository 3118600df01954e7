import SchemaClasses.Keyed
import SchemaClasses.Settings.Value
import SchemaClasses.Unicode.Core

/-! Settings files in the INI format, in which all values are text. -/

namespace SchemaClasses

namespace Ini

/-- Reading takes something from the start of a text. -/
abbrev Take (α : Type) := List Char → Option (α × List Char)

/-- A character between the words of a file. -/
def isBlank (c : Char) : Bool := Unicode.whiteSpace.contains c

/-- A character that ends a line. -/
def endsLine (c : Char) : Bool := c == '\n' || c == '\r'

/-- A text without white space in front and behind. -/
def trimmed (letters : List Char) : List Char :=
  ((letters.dropWhile isBlank).reverse.dropWhile isBlank).reverse

/-- The character behind a backslash, or none where the backslash joins lines. -/
def escape : Take (Option Char)
  | '0' :: rest => some (some '\x00', rest)
  | 'a' :: rest => some (some '\x07', rest)
  | 'b' :: rest => some (some '\x08', rest)
  | 't' :: rest => some (some '\t', rest)
  | 'r' :: rest => some (some '\r', rest)
  | 'n' :: rest => some (some '\n', rest)
  | '\n' :: rest => some (none, rest)
  | 'x' :: rest => do
    let (code, rest) ← Json.hexQuad rest
    if code.isValidChar then some (some (Char.ofNat code), rest) else none
  | c :: rest => some (some c, rest)
  | [] => none

/-- The letters up to a character that ends them, which is left; the text must not end before
that unless it may. -/
def untilEnd (ends : Char → Bool) (mayEnd : Bool) :
    (steps : Nat) → (taken : List Char) → Take (List Char)
  | 0, _, _ => none
  | steps + 1, taken, text =>
    match text with
    | [] => if mayEnd then some (taken.reverse, []) else none
    | c :: rest =>
      if ends c then some (taken.reverse, c :: rest)
      else if c == '\\' then do
        let (c, rest) ← escape rest
        untilEnd ends mayEnd steps (c.toList ++ taken) rest
      else untilEnd ends mayEnd steps (c :: taken) rest

/-- The letters up to a character that ends them, and the text behind that character. -/
def enclosed (ends : Char → Bool) : Take (List Char) := fun text => do
  let (letters, rest) ← untilEnd ends false (text.length + 1) [] text
  return (letters, rest.drop 1)

/-- The pieces of a value up to the end of its line: pieces in quotes first, and then the rest. -/
def pieces : (steps : Nat) → (before : List Char) → (isFirst : Bool) → Take String
  | 0, _, _, _ => none
  | steps + 1, before, isFirst, text =>
    match text with
    | '"' :: rest => do
      let (letters, rest) ← enclosed (· == '"') rest
      pieces steps (before ++ letters) false rest
    | '\'' :: rest => do
      let (letters, rest) ← enclosed (· == '\'') rest
      pieces steps (before ++ letters) false rest
    | text => do
      let (letters, rest) ← untilEnd endsLine true (text.length + 1) [] text
      let kept := if isFirst then trimmed letters
        else (letters.reverse.dropWhile isBlank).reverse
      return (String.ofList (before ++ kept), rest)

/-- The value behind an equals sign or a colon. -/
def value : Take String := fun text =>
  pieces (text.length + 1) [] true (text.dropWhile fun c => isBlank c && !endsLine c)

/-- A file in the making: the entries in front of all sections, and the sections with the last one
in front. -/
structure Progress where
  general : List (String × Setting) := []
  sections : List (String × List (String × Setting)) := []
deriving Inhabited

/-- One more entry for the current section. -/
def Progress.withEntry (progress : Progress) (key value : String) : Progress :=
  match progress.sections with
  | [] => { progress with general := Keyed.insertInto key (.text value) progress.general }
  | (name, entries) :: rest =>
    { progress with sections := (name, Keyed.insertInto key (.text value) entries) :: rest }

/-- The table of a finished file. Of sections with one name the last one counts, and sections win
over entries in front of them. -/
def Progress.finish (progress : Progress) : Setting :=
  .table (progress.sections.reverse.foldl
    (fun table (name, entries) => Keyed.insertInto name (.table entries) table) progress.general)

/-- Whether a comment that begins a text may stand there: in front of all else on its line. -/
def entries : (steps : Nat) → (atLineStart : Bool) → Progress → List Char → Option Progress
  | 0, _, _, _ => none
  | steps + 1, atLineStart, progress, text =>
    match text with
    | [] => some progress
    | '\n' :: rest => entries steps true progress rest
    | c :: rest =>
      if isBlank c then entries steps false progress rest
      else if c == ';' || c == '#' then
        if atLineStart then entries steps false progress (rest.dropWhile (· != '\n')) else none
      else if c == '[' then do
        let (name, rest) ← enclosed (· == ']') rest
        let name := String.ofList (trimmed name)
        entries steps false { progress with sections := (name, []) :: progress.sections } rest
      else do
        let (key, rest) ← enclosed (fun c => c == '=' || c == ':') (c :: rest)
        let key := trimmed key
        if key.isEmpty then none
        let (value, rest) ← value rest
        entries steps false (progress.withEntry (String.ofList key) value) rest

/-- The table of a whole text. -/
def parse? (text : String) : Option Setting :=
  let letters := text.toList
  (entries (letters.length + 1) true {} letters).map Progress.finish

end Ini

end SchemaClasses
