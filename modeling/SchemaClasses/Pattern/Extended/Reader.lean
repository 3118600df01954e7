import SchemaClasses.Pattern.Escape
import SchemaClasses.Pattern.Extended

/-! Reading regular expressions of the extended dialect. -/

namespace SchemaClasses

namespace Extended

/-- How far an expression has been read, and what has been seen in it. Options hold until they are
changed again, also behind the group in which they are set. -/
structure Reading where
  rest : List Char
  /-- The number of bytes of the whole text. -/
  size : Nat
  options : Pattern.Options := {}
  groups : Nat := 0
  names : List (String × Nat) := []
  /-- The groups that are referred to, and whether one of them is by its number. -/
  referred : List Nat := []
  numbered : Bool := false

/-- A step of reading, which fails where the text is no expression. -/
abbrev Reader := StateT Reading Option

/-- Blanks as verbose expressions of this dialect have them. -/
def isBlank (c : Char) : Bool := c ∈ [' ', '\t', '\n', '\r']

/-- The text behind the parenthesis that closes a comment. -/
def behindComment : List Char → Option (List Char)
  | ')' :: rest => some rest
  | '\\' :: _ :: rest => behindComment rest
  | _ :: rest => behindComment rest
  | [] => none

/-- The text behind blanks and comments, of which those in parentheses may stand in any expression;
`steps` bounds their number. -/
def behindBlanks? (verbose : Bool) : (steps : Nat) → List Char → Option (List Char)
  | 0, text => some text
  | steps + 1, text =>
    match text with
    | '(' :: '?' :: '#' :: rest => do behindBlanks? verbose steps (← behindComment rest)
    | c :: rest =>
      if verbose && isBlank c then behindBlanks? verbose steps rest
      else if verbose && c == '#' then
        behindBlanks? verbose steps ((rest.dropWhile (· != '\n')).drop 1)
      else some text
    | [] => some []

/-- The text from here on that counts. -/
def Reading.skipped? (reading : Reading) (text : List Char) : Option (List Char) :=
  behindBlanks? reading.options.verbose (text.length + 1) text

/-- Blanks and comments are left out. -/
def skip : Reader Unit := do
  let reading ← get
  let rest ← reading.skipped? reading.rest
  set { reading with rest }

/-- The text that is left. -/
def ahead : Reader (List Char) := return (← get).rest

/-- Reading goes on with a text. -/
def goOn (rest : List Char) : Reader Unit := modify fun reading => { reading with rest }

/-- The characters in front of the text go on being read if they are these. -/
def takes (opening : String) : Reader Bool := do
  let text ← ahead
  if opening.toList.isPrefixOf text then
    goOn (text.drop opening.length)
    return true
  else return false

/-- The parenthesis that closes a group. -/
def close : Reader Unit := do
  skip
  unless ← takes ")" do failure

/-- A decimal number that is written as a word of the machine, and the text behind it. -/
def number? (text : List Char) : Option (Nat × List Char) :=
  let digits := text.takeWhile Char.isDigit
  let n := digits.foldl (fun n c => n * 10 + (c.toNat - '0'.toNat)) 0
  if digits.isEmpty || 0x10000000000000000 ≤ n then none else some (n, text.drop digits.length)

/-- A group that is referred to. -/
def refer (number : Nat) : Reader Extended := do
  modify fun reading => { reading with referred := number :: reading.referred }
  return .reference number

/-- A reference to a group by its number, which is limited by the length of the expression. -/
def numberedReference : Reader Extended := do
  let reading ← get
  let (number, rest) ← number? reading.rest
  if number < reading.size / 2 then
    set { reading with rest, numbered := true }
    refer number
  else failure

/-- A name between an opening and a closing text. -/
def name (opening closing : String) : Reader String := do
  unless ← takes opening do failure
  let text ← ahead
  let name := text.takeWhile fun c => c == '_' || Unicode.alphanumeric.contains c
  goOn (text.drop name.length)
  unless ← takes closing do failure
  if name.isEmpty then failure else return String.ofList name

/-- A reference to a group by its name, or by a number in its place. -/
def namedReference (opening closing : String) : Reader Extended := do
  let name ← name opening closing
  match (← get).names.lookup name with
  | some number => refer number
  | none =>
    let (number, rest) ← number? name.toList
    if rest.isEmpty then refer number else failure

/-- A character by its code: a number of digits, or up to eight of them in braces. -/
def codedLiteral (digits : Nat) : Reader Char := do
  let text ← ahead
  let plain := text.take digits
  match if plain.length = digits then Pattern.hexNumber? plain else none with
  | some code =>
    goOn (text.drop digits)
    Pattern.charOfCode? code
  | none =>
    unless ← takes "\x7b" do failure
    let braced := (← ahead).takeWhile (· != '\x7d')
    goOn (text.drop (braced.length + 2))
    if 8 < braced.length || text.length < braced.length + 2 then failure
    Pattern.charOfCode? (← Pattern.hexNumber? braced)

/-- What an escape with a letter stands for, if it is a single character. -/
def lettersOfEscapes : List (Char × Char) :=
  [('a', '\x07'), ('f', '\x0c'), ('n', '\n'), ('r', '\r'), ('t', '\t'), ('v', '\x0b'),
    ('e', '\x1b')]

/-- What stands behind a backslash. -/
def escape : Reader Extended := do
  let text ← ahead
  let foldCase := (← get).options.foldCase
  match text with
  | [] => failure
  | c :: rest =>
    if c.isDigit then numberedReference
    else
      goOn rest
      if c = 'k' then
        if rest.head? = some '\'' then namedReference "'" "'" else namedReference "<" ">"
      else if c ∈ ['A', 'z', 'b', 'B'] then return .plain ['\\', c] 0 foldCase
      else if c ∈ ['d', 'D', 's', 'S', 'w', 'W'] then return .plain ['\\', c] 1 foldCase
      else if c = 'h' then return .plain "[0-9A-Fa-f]".toList 1 false
      else if c = 'H' then return .plain "[^0-9A-Fa-f]".toList 1 false
      else if c = 'x' then return .literal (← codedLiteral 2) foldCase
      else if c = 'u' then return .literal (← codedLiteral 4) foldCase
      else if c = 'U' then return .literal (← codedLiteral 8) foldCase
      else if c = 'p' ∨ c = 'P' then
        match rest with
        | [] => failure
        | '\x7b' :: inside =>
          let name := inside.takeWhile (· != '\x7d')
          if name.length = inside.length then failure
          goOn (inside.drop (name.length + 1))
          return .plain ('\\' :: c :: '\x7b' :: (name ++ ['\x7d'])) 1 foldCase
        | letter :: rest =>
          goOn rest
          return .plain ['\\', c, letter] 1 foldCase
      else if c = 'K' then return .keepOut
      else if c = 'G' then return .searchStart
      else
        match lettersOfEscapes.lookup c with
        | some letter => return .literal letter foldCase
        | none => if c.isAlpha then failure else return .literal c foldCase

/-- A character as it is spelled inside brackets. -/
def spelledInBrackets (c : Char) : List Char :=
  if isSpecial c || c ∈ ['&', '-', '~'] then ['\\', c] else [c]

/-- The rest of a set in brackets, spelled in the plain dialect; `unclosed` counts the brackets that
are open. -/
def bracketRest : (steps : Nat) → (unclosed : Nat) → Reader (List Char)
  | 0, _ => failure
  | steps + 1, unclosed => do
    skip
    match ← ahead with
    | [] => failure
    | '\\' :: rest =>
      goOn rest
      let spelled ← match ← escape with
        | .literal c _ => pure (spelledInBrackets c)
        | .plain spelling width _ => if width = 1 then pure spelling else failure
        | _ => failure
      return spelled ++ (← bracketRest steps unclosed)
    | '[' :: rest =>
      goOn rest
      return '[' :: (← bracketRest steps (unclosed + 1))
    | ']' :: rest =>
      goOn rest
      match unclosed with
      | 0 => return [']']
      | unclosed + 1 => return ']' :: (← bracketRest steps unclosed)
    | c :: rest =>
      goOn rest
      return c :: (← bracketRest steps unclosed)

/-- A set in brackets. A closing bracket at its start stands for itself. -/
def bracket : Reader Extended := do
  let negation := if ← takes "^" then ['^'] else []
  let first := if ← takes "]" then [']'] else []
  let rest ← bracketRest ((← ahead).length + 1) 0
  return .plain ('[' :: (negation ++ first ++ rest)) 1 (← get).options.foldCase

/-- The least and the greatest number of repetitions, behind the opening brace. -/
def counts? (reading : Reading) (text : List Char) :
    Option ((Nat × Option Nat) × List Char) := do
  let text ← reading.skipped? text
  let (least, rest) ← if text.head? = some ',' then some (0, text) else number? text
  match ← reading.skipped? rest with
  | '\x7d' :: rest => return ((least, some least), rest)
  | ',' :: rest =>
    let rest ← reading.skipped? rest
    let (most, rest) := match number? rest with
      | some (most, rest) => (some most, rest)
      | none => (none, rest)
    match ← reading.skipped? rest with
    | '\x7d' :: rest => return ((least, most), rest)
    | _ => none
  | _ => none

/-- What repeats the expression before it, if anything does. Braces that hold no numbers stand for
themselves. -/
def quantifier : Reader (Option (Nat × Option Nat)) := do
  let reading ← get
  match reading.rest with
  | '?' :: rest => goOn rest; return some (0, some 1)
  | '*' :: rest => goOn rest; return some (0, none)
  | '+' :: rest => goOn rest; return some (1, none)
  | '\x7b' :: rest =>
    match counts? reading rest with
    | some (found, rest) => goOn rest; return some found
    | none => return none
  | _ => return none

/-- What option letters lead up to. -/
inductive OptionsEnd where
  | group
  | options

/-- The options with one of them changed by its letter, if it has one. -/
def changed? (options : Pattern.Options) (off : Bool) : Char → Option Pattern.Options
  | 'i' => some { options with foldCase := !off }
  | 'm' => some { options with multiLine := !off }
  | 's' => some { options with dotAll := !off }
  | 'U' => some { options with reluctant := !off }
  | 'x' => some { options with verbose := !off }
  | 'u' => if off then none else some options
  | _ => none

/-- Option letters up to a colon or a closing parenthesis; `count` is the number of those before,
the hyphen included, which turns the later ones off. -/
def optionLetters : (steps count : Nat) → (off : Bool) → Reader OptionsEnd
  | 0, _, _ => failure
  | steps + 1, count, off => do
    let before := (← ahead).length
    skip
    let reading ← get
    -- Blanks count as well as letters do.
    let count := count + (before - reading.rest.length)
    match reading.rest with
    | [] => failure
    | '-' :: rest =>
      if off then failure
      goOn rest
      optionLetters steps (count + 1) true
    | ')' :: rest =>
      if count = 0 || (off && count = 1) then failure
      goOn rest
      return .options
    | ':' :: rest =>
      if off && count = 1 then failure
      goOn rest
      return .group
    | c :: rest =>
      let options ← changed? reading.options off c
      set { reading with rest, options }
      optionLetters steps (count + 1) off

/-- What opens behind a parenthesis. -/
inductive Opening where
  | look (behind negated : Bool)
  | group (name : Option String)
  | atomic
  | complete (found : Extended)
  | conditional
  | options

/-- The kind of group behind its opening parenthesis. -/
def opening : Reader Opening := do
  skip
  if ← takes "?=" then return .look false false
  else if ← takes "?!" then return .look false true
  else if ← takes "?<=" then return .look true false
  else if ← takes "?<!" then return .look true true
  else if ← takes "?P=" then return .complete (← namedReference "" ")")
  else if ← takes "?>" then return .atomic
  else if ← takes "?(" then return .conditional
  else
    match ← ahead with
    | '?' :: '<' :: _ =>
      discard (takes "?")
      return .group (some (← name "<" ">"))
    | '?' :: 'P' :: '<' :: _ =>
      discard (takes "?P")
      return .group (some (← name "<" ">"))
    | '?' :: rest =>
      goOn rest
      return .options
    | _ => return .group none

/-- The number of a group that opens, and its name from here on. -/
def enter (name : Option String) : Reader Nat := do
  let reading ← get
  let number := reading.groups + 1
  set { reading with
    groups := number, names := (name.map fun name => (name, number)).toList ++ reading.names }
  return number

/-- The branches of a condition: the first alternative, and all others. -/
def branchesOf : Extended → Extended × Extended
  | .alternatives [yes, no] => (yes, no)
  | .alternatives (yes :: no) => (yes, .alternatives no)
  | yes => (yes, .empty)

/-- What is tested by a condition: a reference there asks whether its group has been entered. -/
def tested : Extended → Extended
  | .reference number => .entered number
  | test => test

/-- Groups may be nested less deeply than this. -/
def depthLimit : Nat := 64

mutual

/-- Alternatives up to a closing parenthesis or the end of the text. -/
def choice : (steps depth : Nat) → Reader Extended
  | 0, _ => failure
  | steps + 1, depth => do
    let first ← sequenceOf steps depth []
    skip
    if (← ahead).head? = some '|' then
      return .alternatives (first :: (← furtherBranches steps depth))
    else
      let reading ← get
      -- Numbers and names of groups are not mixed.
      if reading.numbered && !reading.names.isEmpty then failure
      return first

/-- The alternatives behind the first one. -/
def furtherBranches : (steps depth : Nat) → Reader (List Extended)
  | 0, _ => failure
  | steps + 1, depth => do
    if ← takes "|" then
      let branch ← sequenceOf steps depth []
      skip
      return branch :: (← furtherBranches steps depth)
    else return []

/-- Expressions one after the other, behind those that have been read. -/
def sequenceOf : (steps depth : Nat) → List Extended → Reader Extended
  | 0, _, _ => failure
  | steps + 1, depth, parts => do
    let before ← ahead
    let part ← if before.isEmpty then pure .empty else repeatedAtom steps depth
    if (← ahead).length = before.length then
      return match parts with
        | [] => .empty
        | [part] => part
        | parts => .sequence parts
    else sequenceOf steps depth (if part.isEmpty then parts else parts ++ [part])

/-- An expression with what repeats it. -/
def repeatedAtom : (steps depth : Nat) → Reader Extended
  | 0, _ => failure
  | steps + 1, depth => do
    let body ← atom steps depth
    skip
    match ← quantifier with
    | none => return body
    | some (least, most) =>
      if !body.isRepeatable then failure
      skip
      let marked ← takes "?"
      let greedy := marked == (← get).options.reluctant
      let found := Extended.repetition body least most greedy
      return if ← takes "+" then .atomic found else found

/-- One character, class, condition or group. -/
def atom : (steps depth : Nat) → Reader Extended
  | 0, _ => failure
  | steps + 1, depth => do
    skip
    let reading ← get
    let options := reading.options
    match reading.rest with
    | [] => return .empty
    | c :: rest =>
      if c ∈ ['+', '*', '?', '|', ')'] then return .empty
      goOn rest
      match c with
      | '.' => return .any options.dotAll
      | '^' => return .limit false options.multiLine
      | '$' => return .limit true options.multiLine
      | '(' => groupOf steps (depth + 1)
      | '\\' => escape
      | '[' => bracket
      | c => return .literal c options.foldCase

/-- A group behind its opening parenthesis. -/
def groupOf : (steps depth : Nat) → Reader Extended
  | 0, _ => failure
  | steps + 1, depth => do
    if depthLimit ≤ depth then failure
    let enclosed (make : Extended → Extended) : Reader Extended := do
      let body ← choice steps depth
      close
      return make body
    match ← opening with
    | .look behind negated => enclosed (.look behind negated)
    | .group name =>
      let number ← enter name
      enclosed (.group number)
    | .atomic => enclosed .atomic
    | .complete found => return found
    | .conditional => conditionalOf steps depth
    | .options =>
      let before := (← get).options
      match ← optionLetters ((← ahead).length + 1) 0 false with
      | .options => return .empty
      | .group =>
        let body ← choice steps depth
        unless ← takes ")" do failure
        modify fun reading => { reading with options := before }
        return body

/-- A condition behind its opening parenthesis, with its branches. -/
def conditionalOf : (steps depth : Nat) → Reader Extended
  | 0, _ => failure
  | steps + 1, depth => do
    let test ← match ← ahead with
      | '\'' :: _ => namedReference "'" "'"
      | '<' :: _ => namedReference "<" ">"
      | c :: _ => if c.isDigit then numberedReference else choice steps depth
      | [] => failure
    close
    let before ← ahead
    let body ← choice steps depth
    if (← ahead).length = before.length then
      close
      match test with
      | .reference number => return .entered number
      | _ => failure
    else
      let (yes, no) := branchesOf body
      close
      return if yes.isEmpty && no.isEmpty then tested test else .conditional (tested test) yes no

end

/-- The expression that a text spells, and the groups that it refers to. -/
def read? (text : List Char) : Option (Extended × List Nat) := do
  let start : Reading := { rest := text, size := (String.ofList text).utf8ByteSize }
  -- A parenthesis takes no more steps than these, and any other character fewer.
  let (found, reading) ← (choice (8 * text.length + 8) 0).run start
  if reading.rest.isEmpty then some (found, reading.referred) else none

end Extended

end SchemaClasses
