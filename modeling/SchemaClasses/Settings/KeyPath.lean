import SchemaClasses.Keyed
import SchemaClasses.Settings.Value

/-! Where a setting belongs: the paths that the keys of a layer spell, and values put there. -/

namespace SchemaClasses

/-- One step from a value to a part of it. -/
inductive KeyStep where
  | entry (key : String)
  /-- Items count from the end where the index is negative. -/
  | item (index : Int)
deriving DecidableEq, Repr, Inhabited

/-- The path to a setting, of which the first key leads into the whole table. -/
structure KeyPath where
  head : String
  steps : List KeyStep := []
deriving DecidableEq, Repr, Inhabited

namespace KeyPath

/-- A character of a key in a path. -/
def isKeyChar (c : Char) : Bool := c.isAlphanum || c == ' ' || c == '_' || c == '-'

/-- A key at the start of a text. -/
def key? (text : List Char) : Option (String × List Char) :=
  let letters := text.takeWhile isKeyChar
  if letters.isEmpty then none else some (String.ofList letters, text.drop letters.length)

/-- An index and the bracket behind it. -/
def index? (text : List Char) : Option (Int × List Char) := do
  let isSpace (c : Char) := c == ' ' || c == '\t'
  let (isNegative, rest) := match text.dropWhile isSpace with
    | '-' :: rest => (true, rest)
    | rest => (false, rest)
  let digits := rest.takeWhile Char.isDigit
  if digits.isEmpty then none
  let magnitude : Int := numberOf 10 digits
  let n := if isNegative then -magnitude else magnitude
  match (rest.drop digits.length).dropWhile isSpace with
  | ']' :: rest => if fitsInt64 n then some (n, rest) else none
  | _ => none

/-- The steps that a text spells to its end; `count` bounds their number. -/
def steps? : (count : Nat) → List Char → Option (List KeyStep)
  | _, [] => some []
  | 0, _ => none
  | count + 1, '.' :: text => do
    let (key, rest) ← key? text
    return .entry key :: (← steps? count rest)
  | count + 1, '[' :: text => do
    let (index, rest) ← index? text
    return .item index :: (← steps? count rest)
  | _, _ => none

/-- The path that a text spells: a key, then keys behind dots and indices in brackets. -/
def ofText? (text : String) : Option KeyPath := do
  let (head, rest) ← key? text.toList
  return ⟨head, ← steps? rest.length rest⟩

/-- The path that a key of a layer stands for; one that spells no path is a key itself. -/
def ofKey (key : String) : KeyPath := (ofText? key).getD ⟨key, []⟩

end KeyPath

namespace Setting

/-- The entries of a value; one that is no table counts as an empty one. -/
def held (value : Setting) : Keyed Setting := ⟨value.entries?.getD []⟩

/-- The items of a value; one that is no list counts as an empty one. -/
def listed (value : Setting) : List Setting := value.items?.getD []

mutual

/-- A value put into a table under the lower case of a key: tables are merged, and all else is
replaced. -/
def overlay (target : Setting) (key : String) : Setting → Setting
  | table entries =>
    let key := lowerText key
    let below := (target.held.find? key).getD (table [])
    table (target.held.insert key (overlayAll below entries)).entries
  | value => table (target.held.insert (lowerText key) value).entries

/-- Values put into a table one after another. -/
def overlayAll (target : Setting) : List (String × Setting) → Setting
  | [] => target
  | (key, value) :: rest => overlayAll (overlay target key value) rest

end

/-- The position that an index means in a list of some length, if it does not lie in front. -/
def position? (length : Nat) (index : Int) : Option Nat :=
  let position := if index < 0 then index + length else index
  if 0 ≤ position then some position.toNat else none

/-- A list with a changed item, after the list has been filled up with nothing to hold it. -/
def changeItem (items : List Setting) (position : Nat) (change : Setting → Option Setting) :
    Option (List Setting) :=
  let filled := items ++ List.replicate (position + 1 - items.length) nothing
  (change ((filled[position]?).getD nothing)).map fun changed => filled.set position changed

/-- A value put at the end of some steps from a key. Whatever does not have the form that a step
asks for gives way to a value that has it. -/
def putAt? (target : Setting) (key : String) (value : Setting) :
    List KeyStep → Option Setting
  | [] => some (overlay target key value)
  | .entry next :: steps => do
    let below := (target.held.find? key).getD nothing
    return table (target.held.insert key (← putAt? below next value steps)).entries
  | .item index :: steps => do
    let below := (target.held.find? key).getD nothing
    let items ← putItem? below.listed index steps
    return table (target.held.insert key (list items)).entries
where
  /-- A value put at the end of some steps from an item of a list. -/
  putItem? (items : List Setting) (index : Int) : List KeyStep → Option (List Setting)
    | [] => do
      let position ← position? items.length index
      changeItem items position fun _ => some value
    | .entry next :: steps => do
      let position ← position? items.length index
      changeItem items position fun below => putAt? below next value steps
    | .item inner :: steps => do
      let position ← position? items.length index
      changeItem items position fun below => (putItem? below.listed inner steps).map list

/-- The settings with a layer put over them; nothing where an index lies in front of a list. -/
def applyLayer? (below : Setting) (layer : List (String × Setting)) : Option Setting :=
  layer.foldlM
    (fun settings (key, value) =>
      let path := KeyPath.ofKey key
      putAt? settings path.head value path.steps)
    below

end Setting

end SchemaClasses
