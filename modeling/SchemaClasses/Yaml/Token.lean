import SchemaClasses.Yaml.Scalar

/-! The tokens of a YAML text, among them the starts and ends that indentation stands for. -/

namespace SchemaClasses

namespace Yaml

/-- What a document is made of. -/
inductive Token where
  | version
  /-- A handle and the beginning of the tags that it stands for. -/
  | handle (name meaning : String)
  | documentStart
  | documentEnd
  | blockSequence
  | blockMapping
  | blockEnd
  | blockEntry
  | flowSequence
  | flowSequenceEnd
  | flowMapping
  | flowMappingEnd
  | flowEntry
  | key
  | value
  | anchor (name : String)
  | alias (name : String)
  | tag (handle suffix : String)
  | scalar (text : String) (isPlain : Bool)
deriving DecidableEq, Repr, Inhabited

/-- Whether a token prepares for the node behind it. -/
def Token.isProperty : Token → Bool
  | anchor _ | tag .. => true
  | _ => false

/-- A place in front of which a key may turn out to begin. -/
structure PossibleKey where
  isPossible : Bool := false
  /-- Whether nothing but a key can begin there. -/
  isRequired : Bool := false
  /-- How many tokens stand before it. -/
  position : Nat := 0
  cursor : Cursor := ⟨[], 0, 0, 0, true⟩
deriving Inhabited

/-- An indentation that another one has replaced, and whether the other one opened a block. -/
structure Indentation where
  before : Int
  opensBlock : Bool

/-- The state of the reading of tokens. -/
structure Scan where
  cursor : Cursor
  indent : Int := -1
  indentations : List Indentation := []
  /-- How many brackets are open. -/
  depth : Nat := 0
  allowsKey : Bool := true
  /-- The place for a key inside the innermost brackets, and inside those around them. -/
  keys : List PossibleKey := [{}]
  /-- The tokens with their columns, the last one first. -/
  tokens : List (Nat × Token) := []
  count : Nat := 0
  /-- Where a colon may follow a value without a blank behind it. -/
  adjacent : Nat := 0

namespace Scan

/-- One more token. -/
def push (scan : Scan) (column : Nat) (token : Token) : Scan :=
  { scan with tokens := (column, token) :: scan.tokens, count := scan.count + 1 }

/-- A token put behind the first tokens. -/
def insert (scan : Scan) (position : Nat) (column : Nat) (token : Token) : Scan :=
  let behind := scan.count - position
  { scan with
    tokens := scan.tokens.take behind ++ (column, token) :: scan.tokens.drop behind
    count := scan.count + 1 }

/-- Whether keys may begin from here on. -/
def allowing (scan : Scan) (allowsKey : Bool) : Scan := { scan with allowsKey }

/-- The place for a key in the innermost brackets. -/
def possibleKey (scan : Scan) : PossibleKey := scan.keys.head?.getD {}

/-- The place for a key that is replaced. -/
def withKey (scan : Scan) (key : PossibleKey) : Scan :=
  { scan with keys := key :: scan.keys.drop 1 }

/-- No key begins where one was possible. -/
def dropKey? (scan : Scan) : Option Scan :=
  let key := scan.possibleKey
  if key.isPossible && key.isRequired then none
  else some (scan.withKey { key with isPossible := false })

/-- A key may begin here, if keys may begin. -/
def saveKey (scan : Scan) : Scan :=
  if scan.allowsKey then
    let opensBlock := scan.indentations.head?.any Indentation.opensBlock
    scan.withKey {
      isPossible := true
      isRequired := scan.depth == 0 && scan.indent == scan.cursor.column && opensBlock
      position := scan.count
      cursor := scan.cursor }
  else scan

/-- Places for keys that have been left behind. Outside of brackets a key ends on the line where it
begins, and has at most 1024 characters. -/
def dropStale? (scan : Scan) : Option Scan := do
  if scan.depth ≠ 0 then return scan
  let keys ← scan.keys.mapM fun key =>
    let isStale := key.cursor.line < scan.cursor.line
      || key.cursor.index + 1024 < scan.cursor.index
    if key.isPossible && isStale then
      if key.isRequired then none else some { key with isPossible := false }
    else some key
  return { scan with keys }

/-- The blocks that end where something stands at a column; `steps` bounds their number. -/
def unindent (column : Int) : (steps : Nat) → Scan → Scan
  | 0, scan => scan
  | steps + 1, scan =>
    match scan.indentations with
    | [] => scan
    | indentation :: outer =>
      if scan.depth ≠ 0 || scan.indent ≤ column then scan
      else
        let scan := { scan with indent := indentation.before, indentations := outer }
        unindent column steps
          (if indentation.opensBlock then scan.push scan.cursor.column .blockEnd else scan)

/-- The blocks that end where something stands at a column. -/
def unindented (scan : Scan) (column : Int) : Scan :=
  unindent column scan.indentations.length scan

/-- Indentations that opened no block are given up. -/
def withoutLoose (scan : Scan) : Scan :=
  let loose := scan.indentations.takeWhile (!·.opensBlock)
  match loose.getLast? with
  | some outermost =>
    { scan with
      indent := outermost.before, indentations := scan.indentations.drop loose.length }
  | none => scan

/-- An indentation by one column that opens no block. -/
def indentLoosely (scan : Scan) : Scan :=
  if scan.depth == 0 && scan.indentations.head?.any Indentation.opensBlock then
    { scan with
      indent := scan.indent + 1, indentations := ⟨scan.indent, false⟩ :: scan.indentations }
  else scan

/-- A block that begins at a column, if it stands further right than the one around it. -/
def openBlock (scan : Scan) (column position : Nat) (token : Token) : Scan :=
  if scan.depth ≠ 0 then scan
  else
    let scan := match scan.indentations with
      | ⟨before, false⟩ :: outer =>
        if scan.indent ≤ (column : Int) then { scan with indent := before, indentations := outer }
        else scan
      | _ => scan
    if scan.indent < (column : Int) then
      { scan.insert position column token with
        indent := column, indentations := ⟨scan.indent, true⟩ :: scan.indentations }
    else scan

/-- The cursor behind blanks and a comment. -/
def skipBlanks? (scan : Scan) (allowTabs : Bool) : Option (Skipped × Scan) :=
  (scan.cursor.skipBlanks allowTabs).map fun (skipped, cursor) => (skipped, { scan with cursor })

/-- The cursor behind some characters. -/
def skip (scan : Scan) (count : Nat) : Scan := { scan with cursor := scan.cursor.skip count }

/-- The scan at the next token: behind blanks, comments and line breaks, where outside of brackets a
key may begin on each new line. Tabs do not indent. -/
def toToken? : (steps : Nat) → Scan → Option Scan
  | 0, scan => some scan
  | steps + 1, scan =>
    let cursor := scan.cursor
    if cursor.here == '\t' && !scan.indentations.isEmpty && cursor.isLeading
        && cursor.column < scan.indent then do
      let (_, scan) ← scan.skipBlanks? true
      if endsLine scan.cursor.here then toToken? steps scan else none
    else if isBlank cursor.here then toToken? steps { scan with cursor := cursor.skipBlank }
    else if isBreak cursor.here then
      toToken? steps
        { scan with cursor := cursor.skipBreak, allowsKey := scan.allowsKey || scan.depth == 0 }
    else if cursor.here == '#' then toToken? steps { scan with cursor := cursor.skipLine }
    else some scan

/-- The scan at the next token. -/
def atToken? (scan : Scan) : Option Scan := toToken? scan.cursor.steps scan

/-- The scan outside of all blocks, where no key may begin. -/
def outside? (scan : Scan) : Option Scan := do
  return (← (scan.unindented (-1)).dropKey?).allowing false

/-- What a line of instructions to the reader says. -/
def directive? (scan : Scan) : Option Scan := do
  let scan ← scan.outside?
  let line := (scan.cursor.rest.drop 1).takeWhile (!endsLine ·)
  let behind := { scan with cursor := scan.cursor.skipLine }
  let shown := line.takeWhile fun c => c != '#'
  let words := (shown.splitBy fun a b => isBlank a == isBlank b).filter fun word =>
    !word.all isBlank
  match words.map String.ofList with
  | ["YAML", number] =>
    let isNumber := number.toList.all fun c => c.isDigit || c == '.'
    if isNumber then return behind.push 0 .version else none
  | "YAML" :: _ => none
  | ["TAG", name, meaning] => return behind.push 0 (.handle name meaning)
  | "TAG" :: _ => none
  | [] => none
  | _ => return behind.push 0 (.handle "" "")

/-- Three marks that start or end a document. -/
def documentMark? (scan : Scan) (token : Token) : Option Scan := do
  let scan ← scan.outside?
  let scan := (scan.push scan.cursor.column token).skip 3
  if token = .documentEnd then
    let (_, scan) ← scan.skipBlanks? true
    if endsLine scan.cursor.here then some scan else none
  else some scan

/-- How many brackets may be open at once. -/
def depthLimit : Nat := 255

/-- An opening bracket. -/
def open? (scan : Scan) (token : Token) : Option Scan := do
  if depthLimit ≤ scan.depth then none
  let scan := scan.saveKey.indentLoosely
  let scan := { scan with keys := {} :: scan.keys, depth := scan.depth + 1, allowsKey := true }
  let (_, scan) ← ((scan.push scan.cursor.column token).skip 1).skipBlanks? true
  return scan

/-- A closing bracket. -/
def close? (scan : Scan) (token : Token) : Option Scan := do
  let scan ← scan.dropKey?
  let scan := if scan.depth = 0 then scan
    else { scan with keys := scan.keys.drop 1, depth := scan.depth - 1 }
  let scan := (scan.allowing false).push scan.cursor.column token
  let (_, scan) ← (scan.skip 1).skipBlanks? true
  return if 0 < scan.depth then { scan with adjacent := scan.cursor.index } else scan

/-- A comma between items in brackets. -/
def flowEntry? (scan : Scan) : Option Scan := do
  let scan := (← scan.dropKey?).allowing true
  let (_, scan) ← ((scan.push scan.cursor.column .flowEntry).skip 1).skipBlanks? true
  return scan

/-- A dash in front of an item of a block. -/
def blockEntry? (scan : Scan) : Option Scan := do
  if scan.depth ≠ 0 || !scan.allowsKey then none
  let isMisplaced := match scan.tokens with
    | (0, token) :: _ => token.isProperty && scan.cursor.column == 0 && -1 < scan.indent
    | _ => false
  if isMisplaced then none
  let column := scan.cursor.column
  let scan := (scan.skip 1).openBlock column scan.count .blockSequence
  let (skipped, scan) ← scan.skipBlanks? true
  if skipped.tabs && scan.cursor.here == '-' && endsWord scan.cursor.next then none
  let scan := if isBreak scan.cursor.here || isFlowMark scan.cursor.here then scan.indentLoosely
    else scan
  return ((← scan.dropKey?).allowing true).push column .blockEntry

/-- A question mark in front of a key. -/
def key? (scan : Scan) : Option Scan := do
  let column := scan.cursor.column
  if scan.depth = 0 && !scan.allowsKey then none
  let scan := scan.openBlock column scan.count .blockMapping
  let scan := ((← scan.dropKey?).allowing (scan.depth == 0)).skip 1
  let spaces := (scan.cursor.rest.takeWhile (· == ' ')).length
  let scan := { scan with cursor := Nat.repeat Cursor.skipBlank spaces scan.cursor }
  if scan.cursor.here == '\t' then none
  return scan.push column .key

/-- A colon in front of a value. -/
def value? (scan : Scan) : Option Scan := do
  let key := scan.possibleKey
  let start := scan.cursor
  let scan := scan.skip 1
  let scan ←
    if scan.cursor.here == '\t' then
      let (skipped, behind) ← scan.skipBlanks? true
      let c := behind.cursor.here
      if !skipped.spaces && (c == '-' || c.isAlphanum) then none else some behind
    else some scan
  let scan ←
    if key.isPossible then
      let scan := scan.insert key.position key.cursor.column .key
      let scan := (scan.openBlock key.cursor.column key.position .blockMapping).indentLoosely
      some ((scan.withKey { key with isPossible := false }).allowing false)
    else if scan.depth = 0 then
      if scan.allowsKey then
        some ((scan.openBlock start.column scan.count .blockMapping).indentLoosely)
      else none
    else some (scan.allowing false)
  return scan.push start.column .value

/-- A name behind an ampersand or a star. -/
def reference? (scan : Scan) : Option Scan := do
  let start := scan.cursor
  let scan := (scan.saveKey).allowing false
  let name := (start.rest.drop 1).takeWhile fun c => !endsWord c && !isFlowMark c
  if name.isEmpty then none
  let name := String.ofList name
  let token := if start.here == '*' then Token.alias name else .anchor name
  return (scan.skip (name.length + 1)).push start.column token

/-- A character that a tag may hold. -/
def isTagChar (c : Char) : Bool :=
  c.isAlphanum || c ∈ ("-#;/?:@&=+$_.~*'()!%".toList)

/-- The text of a tag, in which a percent sign stands before the code of a byte. -/
def tagText? : List Char → Option (List Char)
  | [] => some []
  | '%' :: a :: b :: rest => do
    let code := (← Json.hexValue? a) * 16 + (← Json.hexValue? b)
    if code < 0x80 then return Char.ofNat code :: (← tagText? rest) else none
  | '%' :: _ => none
  | c :: rest => do return c :: (← tagText? rest)

/-- A tag: a whole one in angle brackets, or a handle and what follows it. -/
def tag? (scan : Scan) : Option Scan := do
  let start := scan.cursor
  let scan := (scan.saveKey).allowing false
  let (handle, suffix, width) ← match start.rest.drop 1 with
    | '<' :: rest =>
      let letters := rest.takeWhile fun c => isTagChar c || c == ',' || c == '[' || c == ']'
      match rest.drop letters.length with
      | '>' :: _ => some ([], ← tagText? letters, letters.length + 3)
      | _ => none
    | rest =>
      let isNamed (c : Char) := c.isAlphanum || c == '-' || c == '_'
      let name := rest.takeWhile isNamed
      match rest.drop name.length with
      | '!' :: rest =>
        let suffix := rest.takeWhile fun c => isTagChar c && c != '!'
        if suffix.isEmpty then none
        else some ('!' :: name ++ ['!'], ← tagText? suffix, name.length + suffix.length + 2)
      | _ =>
        let suffix := rest.takeWhile fun c => isTagChar c && c != '!'
        some (['!'], ← tagText? suffix, suffix.length + 1)
  let scan := (scan.skip width).push start.column
    (.tag (String.ofList handle) (String.ofList suffix))
  let c := scan.cursor.here
  if endsWord c || 0 < scan.depth && isFlowMark c then some scan else none

/-- Where a scalar stands. -/
def surrounding (scan : Scan) : Surrounding := ⟨0 < scan.depth, scan.indent⟩

/-- A block of lines. -/
def block? (scan : Scan) : Option Scan := do
  let start := scan.cursor
  let scan := (scan.saveKey).withoutLoose
  let (text, cursor) ← block (start.here == '|') scan.indent start
  return ({ scan with cursor }.allowing true).push start.column (.scalar text false)

/-- A quoted scalar. -/
def quoted? (scan : Scan) : Option Scan := do
  let start := scan.cursor
  let scan := (scan.saveKey).allowing false
  let (text, cursor) ← quoted scan.surrounding start
  let scan ← { scan with cursor }.atToken?
  return { scan with adjacent := scan.cursor.index }.push start.column (.scalar text false)

/-- A plain scalar. -/
def plain? (scan : Scan) : Option Scan := do
  let start := scan.cursor
  let scan := ((scan.saveKey).allowing false).withoutLoose
  let (text, broke, cursor) ← plain scan.surrounding start
  return ({ scan with cursor }.allowing broke).push start.column (.scalar text true)

/-- The next token, where there is one. -/
def step? (scan : Scan) : Option Scan :=
  let cursor := scan.cursor
  let next := cursor.next
  if cursor.column == 0 && cursor.here == '%' then scan.directive?
  else if cursor.isMarked '-' then scan.documentMark? .documentStart
  else if cursor.isMarked '.' then scan.documentMark? .documentEnd
  else if cursor.column < scan.indent then none
  else match cursor.here with
    | '[' => scan.open? .flowSequence
    | '\x7b' => scan.open? .flowMapping
    | ']' => scan.close? .flowSequenceEnd
    | '\x7d' => scan.close? .flowMappingEnd
    | ',' => scan.flowEntry?
    | '-' => if endsWord next then scan.blockEntry? else scan.plain?
    | '?' => if endsWord next then scan.key? else scan.plain?
    | ':' =>
      let isValue := endsWord next
        || 0 < scan.depth && (isFlowMark next || cursor.index == scan.adjacent)
      if isValue then scan.value? else scan.plain?
    | '*' | '&' => scan.reference?
    | '!' => scan.tag?
    | '|' | '>' => if scan.depth = 0 then scan.block? else scan.plain?
    | '\'' | '"' => scan.quoted?
    | '%' | '@' | '\x60' => none
    | _ => scan.plain?

/-- The scan behind all tokens; `steps` bounds their number. -/
def run? : (steps : Nat) → Scan → Option Scan
  | 0, _ => none
  | steps + 1, scan => do
    let scan ← (← scan.atToken?).dropStale?
    let scan := scan.unindented scan.cursor.column
    if isEnd scan.cursor.here then
      if scan.keys.any fun key => key.isRequired && key.isPossible then none
      else some (scan.unindented (-1))
    else run? steps (← scan.step?)

end Scan

/-- The tokens of a text. -/
def tokens? (text : String) : Option (List Token) := do
  let cursor : Cursor := { rest := text.toList }
  let scan ← Scan.run? (cursor.steps + 1) { cursor }
  return (scan.tokens.map Prod.snd).reverse

end Yaml

end SchemaClasses
