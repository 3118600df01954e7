import SchemaClasses.Pattern

/-! Regular expressions with look-around, back-references, conditions and atomic groups, and how
much of a text they take. -/

namespace SchemaClasses

/-- An expression of the extended dialect. Parts of it that need none of its own means are kept in
the spelling of the plain dialect. -/
inductive Extended where
  | empty
  | literal (c : Char) (foldCase : Bool)
  | any (lineFeed : Bool)
  /-- The start or the end of the text or of a line. -/
  | limit (isEnd ofLine : Bool)
  /-- A class or a condition in the spelling of the plain dialect, and how many characters it
  takes. -/
  | plain (spelling : List Char) (width : Nat) (foldCase : Bool)
  | sequence (parts : List Extended)
  | alternatives (branches : List Extended)
  | group (number : Nat) (body : Extended)
  | repetition (body : Extended) (least : Nat) (most : Option Nat) (greedy : Bool)
  /-- A condition on the text ahead of or behind a position. -/
  | look (behind negated : Bool) (body : Extended)
  /-- Once it has matched, its other matches are not tried. -/
  | atomic (body : Extended)
  /-- What a group has matched, once more. -/
  | reference (number : Nat)
  /-- The condition that a group has been entered. -/
  | entered (number : Nat)
  /-- The match counts from here on. -/
  | keepOut
  /-- The position at which the search has started. -/
  | searchStart
  | conditional (test yes no : Extended)
deriving Repr, Inhabited

namespace Extended

/-- Whether nothing stands there at all. -/
def isEmpty : Extended → Bool
  | empty => true
  | _ => false

/-- Whether a repetition may follow. -/
def isRepeatable : Extended → Bool
  | empty | limit .. | look .. => false
  | _ => true

/-- The characters of an expression that consists of nothing else, in whose case it is strict. -/
def letters? : Extended → Option (List Char)
  | literal c false => some [c]
  | sequence parts => lettersOf? parts
  | _ => none
where
  /-- The characters of expressions one after the other. -/
  lettersOf? : List Extended → Option (List Char)
    | [] => some []
    | part :: rest => do return (← letters? part) ++ (← lettersOf? rest)

/-- How many characters an expression takes: the least number, and whether it is the only one. -/
structure Width where
  least : Nat
  isFixed : Bool

/-- The width of a choice between two expressions. -/
def Width.either (a b : Width) : Width :=
  ⟨min a.least b.least, a.isFixed && b.isFixed && a.least == b.least⟩

/-- How many characters an expression takes. -/
def width : Extended → Width
  | empty | limit .. | look .. | keepOut | searchStart | entered _ => ⟨0, true⟩
  | literal .. | any _ => ⟨1, true⟩
  | plain _ width _ => ⟨width, true⟩
  | sequence parts => widthOfAll parts
  | alternatives branches => widthOfAny branches
  | group _ body | atomic body => width body
  | repetition body least most _ =>
    let inner := width body
    ⟨inner.least * least, inner.isFixed && most == some least⟩
  | reference _ => ⟨0, false⟩
  | conditional test yes no =>
    let tested := width test
    let yes := width yes
    let no := width no
    ⟨tested.least + min yes.least no.least,
      tested.isFixed && yes.isFixed && no.isFixed && tested.least + yes.least == no.least⟩
where
  /-- The width of expressions one after the other. -/
  widthOfAll : List Extended → Width
    | [] => ⟨0, true⟩
    | part :: rest =>
      let first := width part
      let others := widthOfAll rest
      ⟨first.least + others.least, first.isFixed && others.isFixed⟩
  /-- The width of a choice. -/
  widthOfAny : List Extended → Width
    | [] => ⟨0, true⟩
    | [branch] => width branch
    | branch :: rest => (width branch).either (widthOfAny rest)

/-- Whether an expression is beyond the plain dialect, given the groups that are referred to. -/
def isHard (referred : List Nat) : Extended → Bool
  | empty | literal .. | any _ | limit .. | plain .. => false
  | sequence parts => anyHard referred parts
  | alternatives branches => anyHard referred branches
  | group number body => referred.contains number || isHard referred body
  | repetition body _ _ _ => isHard referred body
  | look .. | atomic _ | reference _ | entered _ | keepOut | searchStart | conditional .. => true
where
  /-- Whether one of the expressions is. -/
  anyHard (referred : List Nat) : List Extended → Bool
    | [] => false
    | part :: rest => isHard referred part || anyHard referred rest

/-- The number of groups that are open or closed behind an expression, if all groups that it refers
to have been opened before. -/
def groupsBehind? (opened : Nat) : Extended → Option Nat
  | empty | literal .. | any _ | limit .. | plain .. | keepOut | searchStart => some opened
  | sequence parts => groupsBehindAll? opened parts
  | alternatives branches => groupsBehindAll? opened branches
  | group _ body => groupsBehind? (opened + 1) body
  | repetition body _ _ _ | look _ _ body | atomic body => groupsBehind? opened body
  | reference number | entered number => if number < opened then some opened else none
  | conditional test yes no => do
    groupsBehind? (← groupsBehind? (← groupsBehind? opened test) yes) no
where
  /-- The number of groups behind expressions one after the other. -/
  groupsBehindAll? (opened : Nat) : List Extended → Option Nat
    | [] => some opened
    | part :: rest => do groupsBehindAll? (← groupsBehind? opened part) rest

/-- The characters that have a meaning of their own in the plain dialect, outside of brackets. -/
def isSpecial (c : Char) : Bool := c ∈ "\\.+*?()|[]\x7b\x7d^$#".toList

/-- A spelling that does not depend on the case of letters, where they are folded. -/
def foldedSpelling (foldCase : Bool) (spelling : List Char) : List Char :=
  if foldCase then "(?i:".toList ++ spelling ++ [')'] else spelling

/-- A spelling in a group that is not counted, where one is needed. -/
def bundled (needed : Bool) (spelling : List Char) : List Char :=
  if needed then "(?:".toList ++ spelling ++ [')'] else spelling

/-- The spelling of a number of repetitions. -/
def repetitionSign (least : Nat) (most : Option Nat) : List Char :=
  match least, most with
  | 0, some 1 => ['?']
  | 0, none => ['*']
  | 1, none => ['+']
  | least, none => '\x7b' :: (Nat.toDigits 10 least ++ [',', '\x7d'])
  | least, some most =>
    '\x7b' :: (Nat.toDigits 10 least
      ++ (if least = most then [] else ',' :: Nat.toDigits 10 most) ++ ['\x7d'])

/-- The spelling of an expression in the plain dialect. It binds as tightly as is asked for: `1` in
a choice, `2` in a sequence, `3` under a repetition. -/
def spelling (binding : Nat) : Extended → List Char
  | literal c foldCase => foldedSpelling foldCase (if isSpecial c then ['\\', c] else [c])
  | any lineFeed => if lineFeed then "(?s:.)".toList else ['.']
  | limit isEnd ofLine =>
    let sign := if isEnd then '$' else '^'
    if ofLine then "(?m:".toList ++ [sign, ')'] else [sign]
  | plain spelling _ foldCase => foldedSpelling foldCase spelling
  | sequence parts => bundled (1 < binding) (spellingOfAll parts)
  | alternatives branches => bundled (0 < binding) (spellingOfAny branches)
  | group _ body => '(' :: (spelling 0 body ++ [')'])
  | repetition body least most greedy =>
    bundled (2 < binding)
      (spelling 3 body ++ repetitionSign least most ++ if greedy then [] else ['?'])
  | _ => []
where
  /-- The spelling of expressions one after the other. -/
  spellingOfAll : List Extended → List Char
    | [] => []
    | part :: rest => spelling 2 part ++ spellingOfAll rest
  /-- The spelling of a choice. -/
  spellingOfAny : List Extended → List Char
    | [] => []
    | [branch] => spelling 1 branch
    | branch :: rest => spelling 1 branch ++ '|' :: spellingOfAny rest

end Extended

end SchemaClasses
