import SchemaClasses.Pattern.Bracket
import SchemaClasses.Pattern.Size

/-! Reading regular expressions without look-around and back-references. -/

namespace SchemaClasses

namespace Pattern

/-- A part of an expression that has been read, and how deeply expressions are nested in it. -/
structure Piece where
  pattern : Pattern
  depth : Nat := 0
  /-- Whether a repetition may follow. -/
  repeatable : Bool := true

/-- A piece made of several, one level deeper than the deepest of them. -/
def gathered (join : Pattern → Pattern → Pattern) : List Piece → Piece
  | [] => ⟨.empty, 0, false⟩
  | [piece] => piece
  | latest :: before =>
    ⟨before.foldl (fun found piece => join piece.pattern found) latest.pattern,
      (latest :: before).foldl (fun deepest piece => max deepest piece.depth) 0 + 1, true⟩

/-- What has been read of a group: finished alternatives and the pieces of the last one, both with
the latest first. -/
structure Level where
  branches : List Piece := []
  pieces : List Piece := []

namespace Level

/-- One piece more. -/
def push (level : Level) (piece : Piece) : Level := { level with pieces := piece :: level.pieces }

/-- The alternative is finished. -/
def branch (level : Level) : Level := ⟨gathered .sequence level.pieces :: level.branches, []⟩

/-- The whole group as one piece. -/
def whole (level : Level) : Piece := gathered .alternative level.branch.branches

end Level

/-- A group that is open around what is being read. -/
structure Enclosing where
  level : Level
  /-- The options that hold again behind the group. -/
  options : Options
  captured : Bool

/-- What has been read of an expression. -/
structure Reading where
  options : Options := {}
  level : Level := {}
  outer : List Enclosing := []
  names : List String := []

/-- A decimal number between blanks. -/
def decimal (options : Options) (text : List Char) : Option (Nat × List Char) := do
  let text := text.dropWhile isBlank
  let (digits, rest) := digitsApart text.length text
  let n := digits.foldl (fun n c => n * 10 + (c.toNat - '0'.toNat)) 0
  if digits.isEmpty || 0x100000000 ≤ n then none
  else some (n, options.skip (rest.dropWhile isBlank))
where
  /-- The digits at the start, without what is skipped between them. -/
  digitsApart : Nat → List Char → List Char × List Char
    | 0, text => ([], text)
    | steps + 1, text =>
      match text with
      | c :: rest =>
        if c.isDigit then
          let (digits, rest) := digitsApart steps (options.skip rest)
          (c :: digits, rest)
        else ([], text)
      | [] => ([], [])

/-- The least and the greatest number of repetitions, behind the opening brace. -/
def counts (options : Options) (text : List Char) : Option ((Nat × Option Nat) × List Char) := do
  let (least, rest) ← decimal options (options.skip text)
  match rest with
  | '\x7d' :: rest => return ((least, some least), rest)
  | ',' :: rest =>
    match options.skip rest with
    | '\x7d' :: rest => return ((least, none), rest)
    | rest =>
      let (most, rest) ← decimal options rest
      match rest with
      | '\x7d' :: rest => if most < least then none else return ((least, some most), rest)
      | _ => none
  | _ => none

/-- Option letters up to a colon or a closing parenthesis, which is not taken; a hyphen turns the
later ones off. -/
def optionLetters : (off : Bool) → (seen : List Char) → Options → List Char →
    Option (Options × Nat × List Char)
  | _, _, _, [] => none
  | off, seen, options, c :: rest =>
    if c = ':' ∨ c = ')' then
      -- A hyphen needs a letter behind it.
      if seen.head? = some '-' then none else some (options, seen.length, c :: rest)
    else if c ∈ seen then none
    else match c with
      | '-' => optionLetters true ('-' :: seen) options rest
      | 'i' => optionLetters off (c :: seen) { options with foldCase := !off } rest
      | 'm' => optionLetters off (c :: seen) { options with multiLine := !off } rest
      | 's' => optionLetters off (c :: seen) { options with dotAll := !off } rest
      | 'x' => optionLetters off (c :: seen) { options with verbose := !off } rest
      | 'U' => optionLetters off (c :: seen) { options with reluctant := !off } rest
      | 'R' => optionLetters off (c :: seen) { options with anyLine := !off } rest
      | 'u' => optionLetters off (c :: seen) { options with wide := !off } rest
      | _ => none

/-- Whether a text may name a group. -/
def isGroupName : List Char → Bool
  | first :: rest =>
    (first == '_' || Unicode.alphabetic.contains first)
      && rest.all fun c => c ∈ ['_', '.', '[', ']'] || Unicode.alphanumeric.contains c
  | [] => false

/-- What opens behind a parenthesis. -/
inductive Opening where
  | group (name : Option String)
  | plain (options : Options)
  | options (options : Options)

/-- The kind of group behind its opening parenthesis. -/
def opening (options : Options) (text : List Char) : Option (Opening × List Char) :=
  match options.skip text with
  | '?' :: '=' :: _ | '?' :: '!' :: _ | '?' :: '<' :: '=' :: _ | '?' :: '<' :: '!' :: _ => none
  | '?' :: 'P' :: '<' :: rest | '?' :: '<' :: rest =>
    let name := rest.takeWhile (· != '>')
    match rest.drop name.length with
    | _ :: rest =>
      if isGroupName name then some (.group (some (String.ofList name)), rest) else none
    | [] => none
  | '?' :: rest => do
    let (changed, count, rest) ← optionLetters false [] options rest
    match rest with
    | ':' :: rest => return (.plain changed, rest)
    | _ :: rest => if count = 0 then none else return (.options changed, rest)
    | [] => none
  | rest => some (.group none, rest)

/-- One character, or both of its cases. -/
def literal (options : Options) (c : Char) : Pattern := .chars (options.folded (.single c))

namespace Reading

/-- The reading with one piece more. -/
def push (reading : Reading) (piece : Piece) : Reading :=
  { reading with level := reading.level.push piece }

/-- The last piece repeated. A question mark behind a repetition turns it from taking much to taking
little, or the other way round. -/
def repeated (reading : Reading) (least : Nat) (most : Option Nat) (text : List Char) :
    Option (Reading × List Char) := do
  match reading.level.pieces with
  | piece :: before =>
    if !piece.repeatable then none
    let (marked, rest) := match text with
      | '?' :: rest => (true, rest)
      | text => (false, text)
    let greedy := marked == reading.options.reluctant
    let repetition : Piece :=
      ⟨.repetition piece.pattern least most greedy, piece.depth + 1, true⟩
    return ({ reading with level.pieces := repetition :: before }, rest)
  | [] => none

/-- What opens behind a parenthesis has been read. -/
def opened (reading : Reading) : Opening → Option Reading
  | .options changed =>
    some { reading.push ⟨.empty, 0, false⟩ with options := changed }
  | .plain changed =>
    some { reading with
      options := changed, level := {}
      outer := ⟨reading.level, reading.options, false⟩ :: reading.outer }
  | .group name =>
    if name.any (· ∈ reading.names) then none
    else some { reading with
      level := {}
      outer := ⟨reading.level, reading.options, true⟩ :: reading.outer
      names := name.toList ++ reading.names }

/-- The innermost group is closed. -/
def closed (reading : Reading) : Option Reading :=
  match reading.outer with
  | [] => none
  | enclosing :: outer =>
    let body := reading.level.whole
    let pattern := if enclosing.captured then .group body.pattern else body.pattern
    some { reading with
      options := enclosing.options
      level := enclosing.level.push ⟨pattern, body.depth + 1, true⟩
      outer }

/-- What an escape stands for. -/
def escaped (reading : Reading) (found : Escape) : Reading :=
  reading.push ⟨match found with
    | .literal c => literal reading.options c
    | .set members => .chars members
    | .condition a => .assertion a, 0, true⟩

/-- What the circumflex stands for. -/
def lineStart (options : Options) : Assertion :=
  if !options.multiLine then .textStart
  else if options.anyLine then .anyLineStart
  else .lineStart

/-- What the dollar sign stands for. -/
def lineEnd (options : Options) : Assertion :=
  if !options.multiLine then .textEnd
  else if options.anyLine then .anyLineEnd
  else .lineEnd

/-- What the dot stands for: all characters, or those that break no line. -/
def dot (options : Options) : CodeSet :=
  if options.dotAll then .all
  else if options.anyLine then (CodeSet.ofWords ["A D"]).complement
  else (CodeSet.ofWords ["A"]).complement

/-- One step into the text, which is not empty. -/
def step (reading : Reading) (c : Char) (rest : List Char) : Option (Reading × List Char) := do
  let options := reading.options
  match c with
  | '*' => reading.repeated 0 none rest
  | '+' => reading.repeated 1 none rest
  | '?' => reading.repeated 0 (some 1) rest
  | '\x7b' =>
    let ((least, most), rest) ← counts options rest
    reading.repeated least most (options.skip rest)
  | '|' => return ({ reading with level := reading.level.branch }, rest)
  | '(' =>
    let (kind, rest) ← opening options rest
    return (← reading.opened kind, rest)
  | ')' => return (← reading.closed, rest)
  | '[' =>
    let (set, rest) ← bracket options rest
    return (reading.push ⟨.chars set.members, set.depth, true⟩, rest)
  | '\\' =>
    let (found, rest) ← escape options rest
    return (reading.escaped found, rest)
  | '.' => if !options.wide then none else return (reading.push ⟨.chars (dot options), 0, true⟩, rest)
  | '^' => return (reading.push ⟨.assertion (lineStart options), 0, true⟩, rest)
  | '$' => return (reading.push ⟨.assertion (lineEnd options), 0, true⟩, rest)
  | c => return (reading.push ⟨literal options c, 0, true⟩, rest)

/-- The whole text read; every step takes a character, and `steps` bounds them. -/
def run : Nat → Reading → List Char → Option Piece
  | 0, _, _ => none
  | steps + 1, reading, text => do
    match reading.options.skip text with
    | [] => if reading.outer.isEmpty then some reading.level.whole else none
    | c :: rest =>
      let (reading, rest) ← reading.step c rest
      run steps reading rest

end Reading

/-- How deeply expressions may be nested. -/
def deepest : Nat := 250

/-- The pattern that a text spells, if it is a regular expression of a size that is allowed. -/
def read? (text : List Char) : Option Pattern := do
  let piece ← Reading.run (text.length + 1) {} text
  if piece.depth ≤ deepest && piece.pattern.fits then some piece.pattern else none

/-- The pattern that a text spells, if it is a regular expression. -/
def parse? (text : String) : Option Pattern := read? text.toList

/-- Whether a text is a regular expression without look-around and back-references. -/
def isValid (text : String) : Bool := (parse? text).isSome

end Pattern

end SchemaClasses
