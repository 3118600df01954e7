import SchemaClasses.Settings.Value
import SchemaClasses.Yaml.Token

/-! Settings files in YAML. -/

namespace SchemaClasses

namespace Yaml

/-- The beginning of the tags for the types that every document knows. -/
def commonTag : String := "tag:yaml.org,2002:"

/-- A number as decimal text states it, or one of the words for what is not finite. -/
def isDecimal (letters : List Char) : Bool :=
  let word := String.ofList (letters.dropWhile fun c => c == '-' || c == '+')
  let isInfinite := letters.length ≤ word.length + 1 && word ∈ [".inf", ".Inf", ".INF"]
  isInfinite || String.ofList letters ∈ [".nan", ".NaN", ".NAN"]
    || letters.any Char.isDigit && (AnyDouble.ofText? letters).isSome

/-- The setting that a decimal number stands for; there is none for the words. -/
def decimal? (letters : List Char) : Option Setting :=
  (AnyDouble.ofText? letters).map Setting.decimal

/-- The whole number that letters state in base ten, or behind a mark in another base. -/
def whole? (letters : List Char) : Option Int :=
  match letters with
  | '0' :: 'x' :: digits => int64OfText? 16 digits
  | '0' :: 'o' :: digits => int64OfText? 8 digits
  | letters => int64OfText? 10 letters

/-- The setting that a plain scalar without a tag stands for. -/
def untagged? (text : String) : Option Setting :=
  let letters := text.toList
  match whole? letters with
  | some n => some (.whole n)
  | none =>
    if text ∈ ["", "~", "null"] then some .nothing
    else if text ∈ ["true", "True", "TRUE"] then some (.bool true)
    else if text ∈ ["false", "False", "FALSE"] then some (.bool false)
    else if isDecimal letters then decimal? letters
    else some (.text text)

/-- The setting that a plain scalar with one of the common tags stands for; one that is not of its
type is nothing. -/
def tagged? (type text : String) : Option Setting :=
  let letters := text.toList
  match type with
  | "bool" =>
    some (if text = "true" then .bool true else if text = "false" then .bool false else .nothing)
  | "int" => some (((int64OfText? 10 letters).map Setting.whole).getD .nothing)
  | "float" => if isDecimal letters then decimal? letters else some .nothing
  | "null" => some .nothing
  | _ => some (.text text)

/-- The tag and the name that stand in front of a node. -/
structure Properties where
  tag : Option (String × String) := none
  anchor : Option String := none

/-- The setting that a scalar stands for. -/
def scalarValue? (properties : Properties) (text : String) (isPlain : Bool) : Option Setting :=
  match isPlain, properties.tag with
  | false, _ => some (.text text)
  | true, none => untagged? text
  | true, some (start, type) => if start = commonTag then tagged? type text else some (.text text)

/-- What is known while a document is read: the handles for tags, and the nodes with names. -/
structure Known where
  handles : List (String × String) := []
  nodes : List (String × Setting) := []

/-- The beginning of tags that a handle stands for, and what follows it. -/
def Known.tag? (known : Known) (handle suffix : String) : Option (String × String) :=
  match known.handles.lookup handle with
  | some start => some (start, suffix)
  | none =>
    if handle = "!!" then some (commonTag, suffix)
    else if 2 ≤ handle.length then none
    else some (handle, suffix)

/-- Reading takes a node from the start of some tokens. -/
abbrev Take (α : Type) := Known → List Token → Option (α × Known × List Token)

/-- The properties in front of a node: a name and a tag, each at most once. -/
def properties : Take Properties := fun known tokens =>
  match tokens with
  | .anchor name :: .tag handle suffix :: rest | .tag handle suffix :: .anchor name :: rest => do
    return (⟨some (← known.tag? handle suffix), some name⟩, known, rest)
  | .anchor name :: rest => some (⟨none, some name⟩, known, rest)
  | .tag handle suffix :: rest => do
    return (⟨some (← known.tag? handle suffix), none⟩, known, rest)
  | tokens => some ({}, known, tokens)

/-- Keys are text or whole numbers, and no two of a mapping are the same; a number is written as
text. -/
def addEntry? (entries : List (Setting × Setting)) (key value : Setting) :
    Option (List (Setting × Setting)) :=
  let isSame (other : Setting) := match key, other with
    | .text a, .text b => a == b
    | .whole a, .whole b => a == b
    | _, _ => false
  match key with
  | .text _ | .whole _ =>
    if entries.any fun (other, _) => isSame other then none else some (entries ++ [(key, value)])
  | _ => none

/-- The table of a mapping. -/
def tableOf (entries : List (Setting × Setting)) : Setting :=
  .table (Keyed.ofList (entries.filterMap fun (key, value) =>
    key.wording?.map fun key => (key, value))).entries

/-- A token that ends a part of a block without anything in it. -/
def endsPart : Token → Bool
  | .key | .value | .blockEnd | .blockEntry => true
  | _ => false

/-- A token that ends a part in brackets without anything in it. -/
def endsFlowPart : Token → Bool
  | .value | .flowEntry | .flowSequenceEnd | .flowMappingEnd => true
  | _ => false

mutual

/-- A node. In a block it may be a block of its own; as the value of a key, a list may stand at the
column of the key. `steps` bounds the number of readings. -/
def node : (steps : Nat) → (isBlock mayDash : Bool) → Take Setting
  | 0, _, _, _, _ => none
  | steps + 1, isBlock, mayDash, known, tokens =>
    match tokens with
    | .alias name :: rest => do return (← known.nodes.lookup name, known, rest)
    | tokens => do
      let (found, known, tokens) ← properties known tokens
      let (value, known, rest) ← content steps isBlock mayDash found known tokens
      let known := match found.anchor with
        | some name => { known with nodes := (name, value) :: known.nodes }
        | none => known
      return (value, known, rest)

/-- What a node is behind its properties. -/
def content : (steps : Nat) → (isBlock mayDash : Bool) → Properties → Take Setting
  | 0, _, _, _, _, _ => none
  | steps + 1, isBlock, mayDash, found, known, tokens =>
    match tokens, isBlock with
    | .scalar text isPlain :: rest, _ => do
      return (← scalarValue? found text isPlain, known, rest)
    | .flowSequence :: rest, _ => flowItems steps true [] known rest
    | .flowMapping :: rest, _ => flowEntries steps true [] known rest
    | .blockSequence :: rest, true => items steps [] known rest
    | .blockMapping :: rest, true => entries steps [] known rest
    | tokens, _ =>
      if mayDash && tokens.head? == some .blockEntry then dashedItems steps [] known tokens
      else if found.tag.isSome || found.anchor.isSome then do
        return (← scalarValue? found "" true, known, tokens)
      else none

/-- A part of a block, which may be missing. -/
def part : (steps : Nat) → (mayDash : Bool) → (isMissing : Token → Bool) → Take Setting
  | 0, _, _, _, _ => none
  | steps + 1, mayDash, isMissing, known, tokens =>
    if tokens.head?.any isMissing then some (.nothing, known, tokens)
    else node steps true mayDash known tokens

/-- The items of a list up to the end of its block. -/
def items : (steps : Nat) → List Setting → Take Setting
  | 0, _, _, _ => none
  | steps + 1, taken, known, tokens =>
    match tokens with
    | .blockEnd :: rest => some (.list taken.reverse, known, rest)
    | .blockEntry :: rest => do
      let isMissing (token : Token) := token == .blockEntry || token == .blockEnd
      let (item, known, rest) ← part steps false isMissing known rest
      items steps (item :: taken) known rest
    | _ => none

/-- The items of a list at the column of its key. -/
def dashedItems : (steps : Nat) → List Setting → Take Setting
  | 0, _, _, _ => none
  | steps + 1, taken, known, tokens =>
    match tokens with
    | .blockEntry :: rest => do
      let (item, known, rest) ← part steps false endsPart known rest
      dashedItems steps (item :: taken) known rest
    | tokens => some (.list taken.reverse, known, tokens)

/-- The entries of a mapping up to the end of its block. -/
def entries : (steps : Nat) → List (Setting × Setting) → Take Setting
  | 0, _, _, _ => none
  | steps + 1, taken, known, tokens => do
    let isMissing (token : Token) := token == .key || token == .value || token == .blockEnd
    let (key, known, rest) ← match tokens with
      | .key :: rest => part steps true isMissing known rest
      | .value :: rest => some (.nothing, known, .value :: rest)
      | .blockEnd :: rest => return (tableOf taken, known, rest)
      | _ => none
    let (value, known, rest) ← match rest with
      | .value :: rest => part steps true isMissing known rest
      | rest => some (.nothing, known, rest)
    entries steps (← addEntry? taken key value) known rest

/-- A part in brackets, which may be missing. -/
def flowPart : (steps : Nat) → Take Setting
  | 0, _, _ => none
  | steps + 1, known, tokens =>
    if tokens.head?.any endsFlowPart then some (.nothing, known, tokens)
    else node steps false false known tokens

/-- The value behind a key in brackets, which may be missing together with its colon. -/
def flowValue : (steps : Nat) → Take Setting
  | 0, _, _ => none
  | steps + 1, known, tokens =>
    match tokens with
    | .value :: rest => flowPart steps known rest
    | rest => some (.nothing, known, rest)

/-- The items of a list in brackets. A key among them makes a mapping with a single entry. -/
def flowItems : (steps : Nat) → (isFirst : Bool) → List Setting → Take Setting
  | 0, _, _, _, _ => none
  | steps + 1, isFirst, taken, known, tokens => do
    let tokens ← match isFirst, tokens with
      | true, tokens | false, .flowEntry :: tokens => some tokens
      | false, .flowSequenceEnd :: rest => some (.flowSequenceEnd :: rest)
      | false, _ => none
    match tokens with
    | .flowSequenceEnd :: rest => some (.list taken.reverse, known, rest)
    | .key :: rest =>
      let (key, known, rest) ← flowPart steps known rest
      let (value, known, rest) ← flowValue steps known rest
      flowItems steps false (tableOf (← addEntry? [] key value) :: taken) known rest
    | tokens =>
      let (item, known, rest) ← node steps false false known tokens
      flowItems steps false (item :: taken) known rest

/-- The entries of a mapping in brackets; a value may be missing. -/
def flowEntries : (steps : Nat) → (isFirst : Bool) → List (Setting × Setting) → Take Setting
  | 0, _, _, _, _ => none
  | steps + 1, isFirst, taken, known, tokens => do
    let tokens ← match isFirst, tokens with
      | true, tokens | false, .flowEntry :: tokens => some tokens
      | false, .flowMappingEnd :: rest => some (.flowMappingEnd :: rest)
      | false, _ => none
    match tokens with
    | .flowMappingEnd :: rest => some (tableOf taken, known, rest)
    | .key :: rest =>
      let (key, known, rest) ← flowPart steps known rest
      let (value, known, rest) ← flowValue steps known rest
      flowEntries steps false (← addEntry? taken key value) known rest
    | tokens =>
      let (key, known, rest) ← node steps false false known tokens
      flowEntries steps false (← addEntry? taken key .nothing) known rest

end

/-- The instructions in front of a document, which a mark must follow. -/
def preamble : List Token → Option (Known × Bool × List Token)
  | .version :: rest => do
    let (known, isMarked, rest) ← preamble rest
    if isMarked then some (known, true, rest) else none
  | .handle name start :: rest => do
    let (known, isMarked, rest) ← preamble rest
    let handles := if name.isEmpty then known.handles else (name, start) :: known.handles
    if isMarked then some ({ known with handles }, true, rest) else none
  | .documentStart :: rest => some ({}, true, rest)
  | tokens => some ({}, false, tokens)

/-- The value of a text with one document, or an empty table where there is none. -/
def parse? (text : String) : Option Setting := do
  let isEnd (token : Token) := token == .documentEnd
  let tokens := (← tokens? text).dropWhile isEnd
  if tokens.isEmpty then return .table []
  let (known, isMarked, tokens) ← preamble tokens
  let (value, _, rest) ←
    if isMarked && tokens.head?.all isEnd then some (.nothing, known, tokens)
    else node (6 * tokens.length + 6) true false known tokens
  if (rest.dropWhile isEnd).isEmpty then some value else none

end Yaml

end SchemaClasses
