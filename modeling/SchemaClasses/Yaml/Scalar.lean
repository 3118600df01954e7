import SchemaClasses.Json.Reader

/-! The words of YAML, and the places in a text that they are read from. -/

namespace SchemaClasses

/-! A place in a YAML text, with the line and the column that it stands at. -/

namespace Yaml

/-- A space or a tab. -/
def isBlank (c : Char) : Bool := c == ' ' || c == '\t'

/-- A character that ends a line. -/
def isBreak (c : Char) : Bool := c == '\n' || c == '\r'

/-- What stands behind the end of a text, and ends it where it occurs inside. -/
def isEnd (c : Char) : Bool := c == '\x00'

/-- The end of a line or of the text. -/
def endsLine (c : Char) : Bool := isBreak c || isEnd c

/-- A character that no word holds. -/
def endsWord (c : Char) : Bool := isBlank c || endsLine c

/-- A character that structures lists and mappings in brackets. -/
def isFlowMark (c : Char) : Bool := c ∈ [',', '[', ']', '\x7b', '\x7d']

/-- What is left of a text, and where that begins. -/
structure Cursor where
  rest : List Char
  index : Nat := 0
  line : Nat := 0
  column : Nat := 0
  /-- Whether only blanks stand before it on the line. -/
  isLeading : Bool := true
deriving Repr, Inhabited

/-- Blanks that have been skipped. -/
structure Skipped where
  tabs : Bool := false
  spaces : Bool := false

namespace Cursor

/-- The character here. -/
def here (cursor : Cursor) : Char := cursor.rest.head?.getD '\x00'

/-- The character behind the one here. -/
def next (cursor : Cursor) : Char := (cursor.rest.drop 1).head?.getD '\x00'

/-- An upper bound on the steps to the end of the text. -/
def steps (cursor : Cursor) : Nat := cursor.rest.length + 1

/-- The cursor behind a blank. -/
def skipBlank (cursor : Cursor) : Cursor :=
  { cursor with
    rest := cursor.rest.drop 1, index := cursor.index + 1, column := cursor.column + 1 }

/-- The cursor behind characters that are no line breaks. -/
def skip (cursor : Cursor) (count : Nat) : Cursor :=
  { cursor with
    rest := cursor.rest.drop count, index := cursor.index + count
    column := cursor.column + count, isLeading := false }

/-- The cursor behind a line break. -/
def skipBreak (cursor : Cursor) : Cursor :=
  let width := if cursor.here == '\r' && cursor.next == '\n' then 2 else 1
  { rest := cursor.rest.drop width, index := cursor.index + width, line := cursor.line + 1 }

/-- The cursor at the end of the line. -/
def skipLine (cursor : Cursor) : Cursor :=
  cursor.skip (cursor.rest.takeWhile (!endsLine ·)).length

/-- Whether three marks stand alone at the start of a line. -/
def isMarked (cursor : Cursor) (mark : Char) : Bool :=
  cursor.column == 0 && [mark, mark, mark].isPrefixOf cursor.rest
    && endsWord ((cursor.rest.drop 3).head?.getD '\x00')

/-- Whether a document starts or ends here. -/
def isDocumentMark (cursor : Cursor) : Bool := cursor.isMarked '-' || cursor.isMarked '.'

/-- The cursor behind blanks and a comment, which must stand behind a blank; `steps` bounds the
blanks. -/
def skipBlanksAfter (allowTabs : Bool) :
    (steps : Nat) → Skipped → Cursor → Option (Skipped × Cursor)
  | 0, skipped, cursor => some (skipped, cursor)
  | steps + 1, skipped, cursor =>
    if cursor.here == ' ' then
      skipBlanksAfter allowTabs steps { skipped with spaces := true } cursor.skipBlank
    else if cursor.here == '\t' && allowTabs then
      skipBlanksAfter allowTabs steps { skipped with tabs := true } cursor.skipBlank
    else if cursor.here == '#' then
      if skipped.tabs || skipped.spaces then some (skipped, cursor.skipLine) else none
    else some (skipped, cursor)

/-- The cursor behind blanks and a comment. -/
def skipBlanks (cursor : Cursor) (allowTabs : Bool) : Option (Skipped × Cursor) :=
  skipBlanksAfter allowTabs cursor.steps {} cursor

end Cursor

end Yaml

/-! The scalars of YAML: plain words, quoted strings, and blocks of lines. -/

namespace Yaml

/-- What stands between two words of a scalar: blanks on one line, or line breaks. -/
inductive Gap where
  | blanks (letters : List Char)
  | breaks (count : Nat)
deriving Inhabited

/-- The letters for a gap: a single line break becomes a space, and of more the first is dropped. -/
def Gap.letters : Gap → List Char
  | blanks letters => letters
  | breaks 1 => [' ']
  | breaks count => List.replicate (count - 1) '\n'

/-- Where a scalar stands. -/
structure Surrounding where
  /-- Whether it stands inside of brackets. -/
  isFlow : Bool
  /-- The column that it must not begin before. -/
  indent : Int

/-- Whether a plain scalar ends in front of a character by what follows that. -/
def endsPlain (isFlow : Bool) (c next : Char) : Bool :=
  endsWord c || c == ':' && (endsWord next || isFlow && isFlowMark next)
    || isFlow && isFlowMark c

/-- The number of letters of a plain scalar up to a gap. -/
def plainLength (isFlow : Bool) : List Char → Nat
  | [] => 0
  | c :: rest =>
    if endsPlain isFlow c (rest.head?.getD '\x00') then 0 else plainLength isFlow rest + 1

/-- The cursor behind the blanks and line breaks in a plain scalar; a tab must not indent a line
that has more on it. -/
def plainGap (least : Int) : (steps : Nat) → Gap → Cursor → Option (Gap × Cursor)
  | 0, gap, cursor => some (gap, cursor)
  | steps + 1, gap, cursor =>
    if isBlank cursor.here then
      match gap with
      | .blanks letters =>
        plainGap least steps (.blanks (letters ++ [cursor.here])) cursor.skipBlank
      | .breaks _ =>
        if cursor.here == '\t' && cursor.column < least then do
          let (_, behind) ← cursor.skipBlanks true
          if endsLine behind.here then plainGap least steps gap behind else none
        else plainGap least steps gap cursor.skipBlank
    else if isBreak cursor.here then
      let count := match gap with
        | .blanks _ => 1
        | .breaks count => count + 1
      plainGap least steps (.breaks count) cursor.skipBreak
    else some (gap, cursor)

/-- The rest of a plain scalar behind a gap, and whether it ended with a line break. -/
def plainRest (place : Surrounding) :
    (steps : Nat) → (taken : List Char) → Gap → Cursor → Option (List Char × Bool × Cursor)
  | 0, _, _, _ => none
  | steps + 1, taken, gap, cursor =>
    let endsHere (gap : Gap) (cursor : Cursor) :=
      some (taken, (match gap with | .breaks _ => true | .blanks _ => false), cursor)
    if cursor.isDocumentMark || cursor.here == '#' then endsHere gap cursor
    else if place.isFlow && cursor.here == '-' && isFlowMark cursor.next then none
    else do
      let length := plainLength place.isFlow cursor.rest
      if length = 0 then endsHere gap cursor
      else
        let taken := taken ++ gap.letters ++ cursor.rest.take length
        let cursor := cursor.skip length
        let (gap, cursor) ← plainGap (place.indent + 1) cursor.steps (.blanks []) cursor
        match gap with
        | .blanks [] => some (taken, false, cursor)
        | .breaks _ =>
          if !place.isFlow && cursor.column < place.indent + 1 then some (taken, true, cursor)
          else plainRest place steps taken gap cursor
        | gap => plainRest place steps taken gap cursor

/-- A plain scalar, and whether it ended with a line break. -/
def plain (place : Surrounding) (cursor : Cursor) : Option (String × Bool × Cursor) := do
  if place.isFlow && cursor.column < place.indent + 1 then none
  let (letters, broke, cursor) ← plainRest place cursor.steps [] (.blanks []) cursor
  if letters.isEmpty then none else some (String.ofList letters, broke, cursor)

/-- The letters that stand for one character behind a backslash. -/
def shortEscape? : Char → Option Char
  | '0' => some '\x00'
  | 'a' => some '\x07'
  | 'b' => some '\x08'
  | 't' | '\t' => some '\t'
  | 'n' => some '\n'
  | 'v' => some '\x0b'
  | 'f' => some '\x0c'
  | 'r' => some '\r'
  | 'e' => some '\x1b'
  | ' ' => some ' '
  | '"' => some '"'
  | '/' => some '/'
  | '\\' => some '\\'
  | 'N' => some '\u0085'
  | '_' => some '\u00a0'
  | 'L' => some '\u2028'
  | 'P' => some '\u2029'
  | _ => none

/-- The number of hexadecimal digits behind a letter that asks for them. -/
def codeWidth? : Char → Option Nat
  | 'x' => some 2
  | 'u' => some 4
  | 'U' => some 8
  | _ => none

/-- The character that a backslash and what follows it stand for, and how many characters that
takes. -/
def escape? : List Char → Option (Char × Nat)
  | '\\' :: letter :: rest =>
    match shortEscape? letter with
    | some c => some (c, 2)
    | none => do
      let width ← codeWidth? letter
      let digits := rest.take width
      if digits.length < width then none
      let code ← digits.foldlM (fun n c => (Json.hexValue? c).map (n * 16 + ·)) 0
      if code.isValidChar then some (Char.ofNat code, width + 2) else none
  | _ => none

/-- The letters of a quoted scalar up to a blank or its end, and whether they ended with a joined
line. -/
def quotedWord (quote : Char) :
    (steps : Nat) → (taken : List Char) → Cursor → Option (List Char × Bool × Cursor)
  | 0, _, _ => none
  | steps + 1, taken, cursor =>
    let c := cursor.here
    if endsWord c then some (taken, false, cursor)
    else if c == quote then
      if quote == '\'' && cursor.next == quote then
        quotedWord quote steps (taken ++ [quote]) (cursor.skip 2)
      else some (taken, false, cursor)
    else if c == '\\' && quote == '"' then
      if isBreak cursor.next then some (taken, true, (cursor.skip 1).skipBreak)
      else do
        let (c, width) ← escape? cursor.rest
        quotedWord quote steps (taken ++ [c]) (cursor.skip width)
    else quotedWord quote steps (taken ++ [c]) (cursor.skip 1)

/-- The cursor behind the blanks and line breaks in a quoted scalar. Behind a joined line there are
no breaks yet, and more of them are kept. -/
def quotedGap (indent : Int) : (steps : Nat) → Gap → (isJoined : Bool) → Cursor →
    Option (List Char × Cursor)
  | 0, _, _, _ => none
  | steps + 1, gap, isJoined, cursor =>
    if isBlank cursor.here then
      match gap, isJoined with
      | .blanks letters, false =>
        quotedGap indent steps (.blanks (letters ++ [cursor.here])) isJoined cursor.skipBlank
      | gap, _ =>
        if cursor.here == '\t' && cursor.column < indent then none
        else quotedGap indent steps gap isJoined cursor.skipBlank
    else if isBreak cursor.here then
      let count := match gap with
        | .blanks _ => 1
        | .breaks count => count + 1
      quotedGap indent steps (.breaks count) isJoined cursor.skipBreak
    else
      let letters := match gap, isJoined with
        | .breaks count, true => List.replicate count '\n'
        | gap, _ => gap.letters
      some (letters, cursor)

/-- The rest of a quoted scalar up to its closing quote. -/
def quotedRest (quote : Char) (indent : Int) :
    (steps : Nat) → (taken : List Char) → Cursor → Option (List Char × Cursor)
  | 0, _, _ => none
  | steps + 1, taken, cursor =>
    if cursor.isDocumentMark || isEnd cursor.here || cursor.column < indent then none
    else do
      let (taken, isJoined, cursor) ← quotedWord quote cursor.steps taken cursor
      if cursor.here == quote then some (taken, cursor.skip 1)
      else
        let (letters, cursor) ← quotedGap indent cursor.steps (.blanks []) isJoined cursor
        quotedRest quote indent steps (taken ++ letters) cursor

/-- A quoted scalar. Behind it on the line only what ends an item may stand, or a colon. -/
def quoted (place : Surrounding) (cursor : Cursor) : Option (String × Cursor) := do
  let quote := cursor.here
  let (letters, behind) ← quotedRest quote place.indent cursor.steps [] (cursor.skip 1)
  let (_, behind) ← behind.skipBlanks true
  let c := behind.here
  let mayFollow := endsLine c || place.isFlow && c ∈ [',', '\x7d', ']', ':']
    || c == ':' && cursor.line == behind.line
  if mayFollow then some (String.ofList letters, behind) else none

/-- What becomes of the line breaks at the end of a block. -/
inductive Chomping where
  | strip
  | clip
  | keep
deriving DecidableEq

/-- What a block says of itself behind its mark: the breaks at its end, and its indentation. -/
def blockHeader (cursor : Cursor) : Option (Chomping × Nat × Cursor) :=
  let chomping? (c : Char) :=
    if c == '+' then some Chomping.keep else if c == '-' then some Chomping.strip else none
  let increment? (c : Char) :=
    if c.isDigit && c != '0' then some (Json.digitValue c) else none
  match chomping? cursor.here, increment? cursor.here with
  | some chomping, _ =>
    if cursor.next == '0' then none
    else match increment? cursor.next with
      | some increment => some (chomping, increment, cursor.skip 2)
      | none => some (chomping, 0, cursor.skip 1)
  | none, some increment =>
    match chomping? cursor.next with
    | some chomping => some (chomping, increment, cursor.skip 2)
    | none => some (.clip, increment, cursor.skip 1)
  | none, none => if cursor.here == '0' then none else some (.clip, 0, cursor)

/-- The cursor at the first line of a block that is not empty, the greatest column met before, and
the number of empty lines. -/
def firstLine : (steps : Nat) → (widest empty : Nat) → Cursor → Nat × Nat × Cursor
  | 0, widest, empty, cursor => (widest, empty, cursor)
  | steps + 1, widest, empty, cursor =>
    if cursor.here == ' ' then firstLine steps widest empty cursor.skipBlank
    else
      let widest := max widest cursor.column
      if isBreak cursor.here then firstLine steps widest (empty + 1) cursor.skipBreak
      else (widest, empty, cursor)

/-- The cursor behind the indentation of the next line that is not empty, and the number of empty
lines. -/
def nextLine (indent : Nat) : (steps : Nat) → (empty : Nat) → Cursor → Nat × Cursor
  | 0, empty, cursor => (empty, cursor)
  | steps + 1, empty, cursor =>
    if cursor.here == ' ' && cursor.column < indent then
      nextLine indent steps empty cursor.skipBlank
    else if isBreak cursor.here then nextLine indent steps (empty + 1) cursor.skipBreak
    else (empty, cursor)

/-- The lines of a block that have been read: the letters, whether a line break is due behind them,
whether the last line began with a blank, and the empty lines behind it. -/
structure BlockLines where
  letters : List Char := []
  isBroken : Bool := false
  wasBlank : Bool := false
  empty : Nat := 0

/-- The lines of a block from the first one that is not empty. -/
def blockLines (isLiteral : Bool) (indent : Nat) :
    (steps : Nat) → BlockLines → Cursor → BlockLines × Cursor
  | 0, lines, cursor => (lines, cursor)
  | steps + 1, lines, cursor =>
    if cursor.column ≠ indent || isEnd cursor.here || indent = 0 && cursor.isMarked '.' then
      (lines, cursor)
    else
      let startsBlank := isBlank cursor.here
      let gap :=
        if !isLiteral && lines.isBroken && !lines.wasBlank && !startsBlank then
          if lines.empty = 0 then [' '] else List.replicate lines.empty '\n'
        else (if lines.isBroken then ['\n'] else []) ++ List.replicate lines.empty '\n'
      let content := cursor.rest.takeWhile (!endsLine ·)
      let letters := lines.letters ++ gap ++ content
      let cursor := cursor.skip content.length
      if isEnd cursor.here then
        ({ letters, isBroken := false, wasBlank := startsBlank, empty := 0 }, cursor)
      else
        let cursor := cursor.skipBreak
        let (empty, cursor) := nextLine indent cursor.steps 0 cursor
        blockLines isLiteral indent steps
          { letters, isBroken := true, wasBlank := startsBlank, empty } cursor

/-- A block of lines behind its mark. -/
def block (isLiteral : Bool) (indent : Int) (start : Cursor) : Option (String × Cursor) := do
  let (chomping, increment, cursor) ← blockHeader (start.skip 1)
  let (_, cursor) ← cursor.skipBlanks true
  if !endsLine cursor.here then none
  let broke := isBreak cursor.here
  let cursor := if broke then cursor.skipBreak else cursor
  if cursor.here == '\t' then none
  let (width, empty, cursor) :=
    if increment = 0 then
      let (widest, empty, cursor) := firstLine cursor.steps 0 0 cursor
      let least := max widest (indent + 1).toNat
      (if 0 < indent then max least 1 else least, empty, cursor)
    else
      let width := if 0 ≤ indent then (indent + increment).toNat else increment
      let (empty, cursor) := nextLine width cursor.steps 0 cursor
      (width, empty, cursor)
  if isEnd cursor.here then
    let kept := match chomping with
      | .strip => 0
      | .clip => if broke then 1 else 0
      | .keep => if broke then max empty 1 else 0
    return (String.ofList (List.replicate kept '\n'), cursor)
  if cursor.column < width && indent < cursor.column then none
  let (lines, cursor) := blockLines isLiteral width cursor.steps { empty } cursor
  let ending := match chomping with
    | .strip => []
    | .clip | .keep =>
      (if lines.isBroken then ['\n'] else [])
        ++ (if isEnd cursor.here && max width 1 ≤ cursor.column then ['\n'] else [])
  let further := if chomping = .keep then List.replicate lines.empty '\n' else []
  return (String.ofList (lines.letters ++ ending ++ further), cursor)

end Yaml

end SchemaClasses
