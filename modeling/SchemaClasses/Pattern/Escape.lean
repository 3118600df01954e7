import SchemaClasses.Pattern
import SchemaClasses.Pattern.Options

/-! What stands behind a backslash in a regular expression. -/

namespace SchemaClasses

namespace Pattern

/-- What an escape stands for. -/
inductive Escape where
  | literal (c : Char)
  | set (members : CodeSet)
  | condition (a : Assertion)

/-- The value of hexadecimal digits, if there are any and nothing else. -/
def hexNumber? (digits : List Char) : Option Nat :=
  if digits.isEmpty then none
  else digits.foldlM (fun n c =>
    if c.isDigit then some (n * 16 + (c.toNat - '0'.toNat))
    else if 'a' ≤ c ∧ c ≤ 'f' then some (n * 16 + (c.toNat - 'a'.toNat + 10))
    else if 'A' ≤ c ∧ c ≤ 'F' then some (n * 16 + (c.toNat - 'A'.toNat + 10))
    else none) 0

/-- The character of a code point, where there is one. -/
def charOfCode? (code : Nat) : Option Char :=
  if code.isValidChar then some (Char.ofNat code) else none

/-- The characters up to a closing brace, without what is skipped between them; `none` if there is
no closing brace. -/
def untilBrace (options : Options) : Nat → List Char → Option (List Char × List Char)
  | 0, _ => none
  | steps + 1, text =>
    match options.skip text with
    | '\x7d' :: rest => some ([], rest)
    | c :: rest => (untilBrace options steps rest).map fun (taken, rest) => (c :: taken, rest)
    | [] => none

/-- A number of characters, without what is skipped between them. -/
def takeApart (options : Options) : Nat → List Char → Option (List Char × List Char)
  | 0, text => some ([], text)
  | count + 1, text =>
    match text with
    | c :: rest =>
      (takeApart options count (options.skip rest)).map fun (taken, rest) => (c :: taken, rest)
    | [] => none

/-- A character by its hexadecimal code: `width` digits, or any number of them in braces. A code of
two digits is one of a byte, which is a character of its own in ASCII only. -/
def hexEscape (options : Options) (width : Nat) (text : List Char) :
    Option (Escape × List Char) := do
  match options.skip text with
  | '\x7b' :: rest =>
    let (digits, rest) ← untilBrace options (rest.length + 1) rest
    let c ← charOfCode? (← hexNumber? digits)
    return (.literal c, options.skip rest)
  | text =>
    let (digits, rest) ← takeApart options width text
    let code ← hexNumber? digits
    if !options.wide && width = 2 && 0x80 ≤ code then none
    return (.literal (← charOfCode? code), rest)

/-- The name and the value of a property, and whether they are said to differ. -/
def nameAndValue (name : List Char) : Option (List Char × List Char × Bool) :=
  match cutNotEqual name with
  | some (property, value) => some (property, value, true)
  | none =>
    let separator := if ':' ∈ name then ':' else '='
    let property := name.takeWhile (· != separator)
    match name.drop property.length with
    | _ :: value => some (property, value, false)
    | [] => none
where
  /-- The texts before and behind the first `!=`. -/
  cutNotEqual : List Char → Option (List Char × List Char)
    | '!' :: '=' :: rest => some ([], rest)
    | c :: rest => (cutNotEqual rest).map fun (before, after) => (c :: before, after)
    | [] => none

/-- The characters with a property, by a letter or by a name in braces. -/
def propertyEscape (options : Options) (negated : Bool) (text : List Char) :
    Option (Escape × List Char) := do
  if !options.wide then none
  let (name, rest) ← match options.skip text with
    | '\x7b' :: rest => untilBrace options (rest.length + 1) rest
    | '\\' :: _ | [] => none
    | c :: rest => some ([c], options.skip rest)
  let (set, negated) ← match nameAndValue name with
    | some (property, value, differ) => do
      let set ← Unicode.valued? (Unicode.plainName property) (Unicode.plainName value)
      pure (set, negated != differ)
    | none => do pure (← Unicode.named? (Unicode.plainName name), negated)
  let members ← options.negated? negated (options.folded set)
  return (.set members, rest)

/-- Decimal digits of all scripts, or of ASCII. -/
def digitSet (wide : Bool) : CodeSet :=
  if wide then Unicode.settled Unicode.decimalDigits else .range 0x30 0x39

/-- Blanks of all scripts, or of ASCII. -/
def blankSet (wide : Bool) : CodeSet :=
  if wide then Unicode.whiteSpace else .ofWords ["9-D 20"]

/-- The edges of words by the names that they have in braces. -/
def edgeNames : List (String × WordEdge) :=
  [("start", .start), ("end", .finish), ("start-half", .startHalf), ("end-half", .finishHalf)]

/-- The name of an edge behind its opening brace; a brace in front of anything but a letter or a
hyphen opens no such name. -/
def namedEdge (options : Options) (text : List Char) :
    Option (Option WordEdge × List Char) := do
  let isNameChar (c : Char) : Bool := c.isAlpha || c == '-'
  let inside := options.skip text
  match inside with
  | [] => none
  | c :: _ =>
    if isNameChar c then
      let (name, rest) ← untilBrace options (inside.length + 1) inside
      return (some (← edgeNames.lookup (String.ofList name)), rest)
    else return (none, '\x7b' :: text)

/-- What stands behind a backslash. -/
def escape (options : Options) (text : List Char) : Option (Escape × List Char) := do
  let ofClass (negated : Bool) (set : CodeSet) (rest : List Char) := do
    return (Escape.set (← options.negated? negated set), rest)
  let ofEdge (edge : WordEdge) (rest : List Char) :=
    some (Escape.condition (.word edge options.wide), rest)
  match text with
  | [] => none
  | 'd' :: rest => ofClass false (digitSet options.wide) rest
  | 'D' :: rest => ofClass true (digitSet options.wide) rest
  | 's' :: rest => ofClass false (blankSet options.wide) rest
  | 'S' :: rest => ofClass true (blankSet options.wide) rest
  | 'w' :: rest => ofClass false (wordSet options.wide) rest
  | 'W' :: rest => ofClass true (wordSet options.wide) rest
  | 'b' :: '\x7b' :: rest =>
    let (edge, rest) ← namedEdge options rest
    ofEdge (edge.getD .boundary) rest
  | 'b' :: rest => ofEdge .boundary rest
  | 'B' :: rest => ofEdge .inside rest
  | '<' :: rest => ofEdge .start rest
  | '>' :: rest => ofEdge .finish rest
  | 'A' :: rest => some (.condition .textStart, rest)
  | 'z' :: rest => some (.condition .textEnd, rest)
  | 'a' :: rest => some (.literal '\x07', rest)
  | 'f' :: rest => some (.literal '\x0c', rest)
  | 't' :: rest => some (.literal '\t', rest)
  | 'n' :: rest => some (.literal '\n', rest)
  | 'r' :: rest => some (.literal '\r', rest)
  | 'v' :: rest => some (.literal '\x0b', rest)
  | 'x' :: rest => hexEscape options 2 rest
  | 'u' :: rest => hexEscape options 4 rest
  | 'U' :: rest => hexEscape options 8 rest
  | 'p' :: rest => propertyEscape options false rest
  | 'P' :: rest => propertyEscape options true rest
  | c :: rest =>
    -- Any other ASCII character that is neither a letter nor a digit stands for itself.
    if c.toNat < 0x80 ∧ !c.isAlphanum then some (.literal c, rest) else none

end Pattern

end SchemaClasses
