import SchemaClasses.Decimal.Reader
import SchemaClasses.Text.Casing

/-! The values of settings as files and the environment state them. -/

namespace SchemaClasses

/-- A stated value: nothing, a scalar, a list, or a table with text keys. -/
inductive Setting where
  | nothing
  | bool (value : Bool)
  | whole (value : Int)
  | decimal (value : AnyDouble)
  | text (value : String)
  | list (items : List Setting)
  | table (entries : List (String × Setting))
deriving Repr, Inhabited

namespace Setting

/-- The entries of a table. -/
def entries? : Setting → Option (List (String × Setting))
  | table entries => some entries
  | _ => none

/-- The items of a list. -/
def items? : Setting → Option (List Setting)
  | list items => some items
  | _ => none

/-- Whether nothing is stated. -/
def isNothing : Setting → Bool
  | nothing => true
  | _ => false

mutual

/-- A JSON value as a setting; a whole number that needs more than 63 bits is a double. -/
def ofJson : Json → Setting
  | .null => nothing
  | .bool value => bool value
  | .integer n => if fitsInt64 n then whole n else decimal (.finite (.ofInt n))
  | .float x => decimal (.finite x)
  | .string value => text value
  | .array items => list (ofItems items)
  | .object members => table (ofMembers members)

/-- JSON items as settings. -/
def ofItems : List Json → List Setting
  | [] => []
  | item :: rest => ofJson item :: ofItems rest

/-- JSON members as settings. -/
def ofMembers : List (String × Json) → List (String × Setting)
  | [] => []
  | (key, value) :: rest => (key, ofJson value) :: ofMembers rest

end

/-- Words and numbers that stand for a boolean. -/
def truth? : Setting → Option Bool
  | bool value => some value
  | whole n => some (n != 0)
  | decimal x => some !x.isZero
  | text value =>
    let word := lowerText value
    if word ∈ ["1", "true", "on", "yes"] then some true
    else if word ∈ ["0", "false", "off", "no"] then some false
    else none
  | _ => none

/-- Scalars as text. -/
def wording? : Setting → Option String
  | text value => some value
  | bool value => some (toString value)
  | whole n => some (toString n)
  | decimal x => some x.text
  | _ => none

end Setting

end SchemaClasses
